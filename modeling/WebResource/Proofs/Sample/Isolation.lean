import WebResource.Proofs.Context.Params
import WebResource.Proofs.Isolation
import WebResource.Proofs.Sample.Service

namespace WebResource.Sample

/-!
# Projects are isolated from each other

A request for the notes of a project touches and sees no note of another project. The project is named by
a segment of the path, which is all that the steps on the store know of it.
-/

open Act

namespace Store

variable {fresh : Nat → Uuid} {s s₁ s₂ : Store} {n : Note} {project i : Uuid} {raw method : String}

/-! ## Operations on notes -/

theorem projects_createNote (fresh : Nat → Uuid) (project : Uuid) (n : Note) (s : Store) :
    (s.createNote fresh project n).2.projects = s.projects := by
  unfold createNote
  split
  · rfl
  · split
    · rfl
    · split
      · split
        · rfl
        · rfl
      · rfl

theorem projects_updateNote (project : Uuid) (n : Note) (s : Store) :
    (s.updateNote project n).2.projects = s.projects := by
  unfold updateNote
  split
  · rfl
  · rfl

theorem projects_deleteNote (project i : Uuid) (s : Store) :
    (s.deleteNote project i).2.projects = s.projects := by
  unfold deleteNote
  split
  · rfl
  · rfl

theorem findNote_eq (project i : Uuid) (s : Store) :
    s.findNote project i = (s.notesOf project).find? (·.id == some i) := by
  rw [notesOf, List.find?_filter]
  simp only [Bool.decide_and, Bool.decide_eq_true]
  rfl

theorem any_isNote (project i : Uuid) (s : Store) :
    s.notes.any (isNote project i) = (s.notesOf project).any (·.id == some i) := by
  rw [notesOf, List.any_filter]
  rfl

theorem notesOf_deleteNote_self (project i : Uuid) (s : Store) :
    (s.deleteNote project i).2.notesOf project = (s.notesOf project).filter (·.id != some i) := by
  unfold deleteNote
  split
  · simp only [notesOf, List.filter_filter]
    apply List.filter_congr
    intro m _
    cases hm : m.project == project with
    | false => simp
    | true => simp [isNote, hm, bne]
  · next hnone =>
      rw [any_isNote, List.any_eq_true] at hnone
      refine (List.filter_eq_self.mpr fun m hm => ?_).symm
      simpa using fun hid => hnone ⟨m, hm, by simpa using hid⟩

/-! ## What is kept and what is seen -/

/-- The projects, and the notes of all projects but the one that a text names. -/
def others (raw : String) (s : Store) : List Project × ({q // Uuid.parse raw ≠ .ok q} → List Note) :=
  (s.projects, fun q => s.notesOf q)

theorem others_eq_iff : others raw s₁ = others raw s₂ ↔
    s₁.projects = s₂.projects ∧ ∀ q, Uuid.parse raw ≠ .ok q → s₁.notesOf q = s₂.notesOf q := by
  rw [others, others, Prod.mk.injEq, funext_iff, Subtype.forall]

/-- Stores that a request for the notes of a project cannot tell apart. One that may store a note meets the
identifiers of all. -/
structure Alike (method raw : String) (s₁ s₂ : Store) : Prop where
  projects : s₁.projects = s₂.projects
  notes : ∀ q, Uuid.parse raw = .ok q → s₁.notesOf q = s₂.notesOf q
  eq_of_writes : Resource.Writes method → s₁ = s₂

theorem Alike.hasProject (h : Alike method raw s₁ s₂) (i : Uuid) : s₁.hasProject i = s₂.hasProject i := by
  unfold Store.hasProject
  rw [h.projects]

/-- A context that names the project by a text. -/
def Names (raw : String) (c : Context) : Prop := c.param? projectParam = some raw

theorem parse_of_projectOf {c : Context} (hc : Names raw c) (h : projectOf c = .ok project) :
    Uuid.parse raw = .ok project := by
  unfold projectOf at h
  rw [hc] at h
  simp only at h
  split at h
  · next u hu =>
      cases h
      exact hu
  · cases h

section Isolated

variable {α γ : Type} {kept : Store → γ} {alike : Store → Store → Prop} {c : Context}

theorem within_isolated {x : Uuid → Act Store (Except StorageError α)} (hc : Names raw c)
    (hx : ∀ project, projectOf c = .ok project → Uuid.parse raw = .ok project →
      Isolated kept alike (fun _ => True) (x project)) :
    Isolated kept alike (fun _ => True) (within c x) := by
  unfold within
  split
  · exact .done trivial
  · next project hproject => exact hx project hproject (parse_of_projectOf hc hproject)

theorem deleteNote_isolated (hraw : Uuid.parse raw = .ok project) (i : Uuid) :
    Isolated (others raw) (Alike method raw) (fun _ => True) (Act.step (deleteNote project i)) := by
  refine .step (fun s => ?_) (fun s₁ s₂ halike => ⟨?_, ?_, ?_, ?_⟩) fun _ => trivial
  · refine others_eq_iff.mpr ⟨projects_deleteNote project i s, fun q hq => ?_⟩
    exact notesOf_deleteNote fun hsame => hq (hsame ▸ hraw)
  · unfold deleteNote
    rw [any_isNote, any_isNote, halike.notes project hraw]
    split
    · rfl
    · rfl
  · rw [projects_deleteNote, projects_deleteNote, halike.projects]
  · intro q hq
    obtain rfl := Except.ok.inj (hraw.symm.trans hq)
    rw [notesOf_deleteNote_self, notesOf_deleteNote_self, halike.notes project hraw]
  · intro hwrites
    rw [halike.eq_of_writes hwrites]

/-- A step of a request that may store a note sees all that is stored. -/
theorem storing_isolated {f : Store → α × Store} (hwrites : Resource.Writes method)
    (hprojects : ∀ s, (f s).2.projects = s.projects)
    (hnotes : ∀ s q, Uuid.parse raw ≠ .ok q → (f s).2.notesOf q = s.notesOf q) :
    Isolated (others raw) (Alike method raw) (fun _ => True) (Act.step f) := by
  refine .step (fun s => ?_) (fun s₁ s₂ halike => ?_) fun _ => trivial
  · exact others_eq_iff.mpr ⟨hprojects s, hnotes s⟩
  · obtain rfl := halike.eq_of_writes hwrites
    exact ⟨rfl, rfl, fun _ _ => rfl, fun _ => rfl⟩

end Isolated

end Store

namespace Service

open Resource (Call)
open Store (others Alike Names)

variable (fresh : Nat → Uuid) (options : ResourceOptions) {raw method : String}

/-! ## Notes -/

theorem makesFit_notes_of_writes (hwrites : Resource.Writes method) :
    (notes fresh options).MakesFit fun c n => NoteFits c n ∧ Resource.Writes method where
  made c mediaType document n h := ⟨(makesFit_notes fresh options).made c mediaType document n h, hwrites⟩
  identified c i before n hbefore h :=
    ⟨(makesFit_notes fresh options).identified c i before n hbefore.1 h, hwrites⟩

/-- What may be asked for to serve a request for the notes of a project that a text names. -/
def notesContract (raw method : String) : Prog.Contract (Call Store Note Uuid) Call.Answer :=
  Call.under (Names raw)
    (Call.contract Uuid (fun c n => NoteFits c n ∧ Resource.Writes method) fun f => f = id)

theorem notes_answer_isolated {routers : NodeId → Service Store} (q : Call Store Note Uuid)
    (hq : (notesContract raw method).asks q) :
    Isolated (others raw) (Alike method raw) ((notesContract raw method).grants q)
      ((notes fresh options).answer routers q) := by
  obtain ⟨hcontext, hq⟩ := hq
  cases q with
  | create c n =>
      refine .of_forall ?_ fun _ => ⟨fun _ h => h.elim, trivial⟩
      refine Store.within_isolated (hcontext c rfl) fun project _ hraw => ?_
      refine Store.storing_isolated hq.2 (Store.projects_createNote fresh project n) fun s q hother => ?_
      exact Store.notesOf_createNote fun hsame => hother (hsame ▸ hraw)
  | index c =>
      change Isolated _ _ _ (Store.noteStream c)
      unfold Store.noteStream
      split
      · exact .done ⟨fun _ h => h.elim, rfl⟩
      · next project hproject =>
          have hraw := Store.parse_of_projectOf (hcontext c rfl) hproject
          refine .read (fun s₁ s₂ halike => ?_) fun _ => ⟨fun _ h => h.elim, rfl⟩
          rw [halike.notes project hraw]
  | find c i =>
      refine .of_forall ?_ fun _ => ⟨fun _ h => h.elim, trivial⟩
      refine Store.within_isolated (hcontext c rfl) fun project _ hraw => ?_
      refine .read (fun s₁ s₂ halike => ?_) fun _ => trivial
      rw [Store.findNote_eq, Store.findNote_eq, halike.notes project hraw]
  | update c n =>
      refine .of_forall ?_ fun _ => ⟨fun _ h => h.elim, trivial⟩
      refine Store.within_isolated (hcontext c rfl) fun project hproject hraw => ?_
      have hown : n.project = project := Except.ok.inj (hq.1.1.symm.trans hproject)
      refine Store.storing_isolated hq.2 (Store.projects_updateNote project n) fun s q hother => ?_
      have hne : q ≠ project := fun hsame => hother (hsame ▸ hraw)
      exact (Store.notesOf_updateNote_iff hne).mpr fun _ => hown ▸ hne.symm
  | destroy c i =>
      refine .of_forall ?_ fun _ => ⟨fun _ h => h.elim, trivial⟩
      exact Store.within_isolated (hcontext c rfl) fun project _ hraw => Store.deleteNote_isolated hraw i
  | destroyAll c => exact .panic _
  | prepareCollection c =>
      refine .done ⟨?_, trivial⟩
      rintro _ ⟨⟩
      exact hcontext c rfl
  | prepareResource c i =>
      refine .done ⟨?_, trivial⟩
      rintro _ ⟨⟩
      exact hcontext c rfl
  | delegate request => exact .panic _
  | release f =>
      obtain rfl : f = id := hq
      exact .read (fun _ _ _ => rfl) fun _ => ⟨fun _ h => h.elim, trivial⟩

/-- The notes of the project that the context names are served, whatever else the request says. -/
theorem notes_service_isolated {routers : NodeId → Service Store} (request : Request)
    (hcontext : Names raw (Resource.context request)) :
    Isolated (others raw) (Alike request.method raw) (fun _ => True)
      ((notes fresh options).service routers request) := by
  have hserve : Prog.Meets (notesContract raw request.method) (fun _ => True)
      ((notes fresh options).serve request) :=
    Resource.serve_meets request (makesFit_notes_of_writes fresh options) hcontext fun _ _ => hcontext
  exact .interpret hserve fun q hq => notes_answer_isolated fresh options q hq

/-! ## Projects -/

theorem projects_answer_isolated {below : NodeId} {routers : NodeId → Service Store}
    {request : Request} {cursor : PathCursor}
    (hbelow : ∀ c, Names raw c → Isolated (others raw) (Alike method raw) (fun _ => True)
      (routers below (Resource.nested request c cursor)))
    (q : Call Store Project Uuid) (hq : (Call.nesting (Names raw) request cursor).asks q) :
    Isolated (others raw) (Alike method raw) ((Call.nesting (Names raw) request cursor).grants q)
      ((projects fresh options (.ofRouter below)).answer routers q) := by
  cases q with
  | prepareResource c i =>
      have hfound : Isolated (others raw) (Alike method raw) (fun _ => True)
          (Act.step fun s => (s.hasProject i, s)) :=
        .read (fun s₁ s₂ halike => halike.hasProject i) fun _ => trivial
      refine hfound.bind fun found _ => .done ?_
      cases found with
      | true =>
          rintro _ ⟨⟩
          exact hq
      | false =>
          rintro _ ⟨⟩
  | delegate passed =>
      obtain ⟨c, hc, rfl⟩ := hq
      exact .of_forall (hbelow c hc) fun _ _ h => h.elim
  | create c p => cases hq
  | index c => cases hq
  | find c i => cases hq
  | update c p => cases hq
  | destroy c i => cases hq
  | destroyAll c => cases hq
  | prepareCollection c => cases hq
  | release f => cases hq

/-- The segment of the path names the project. -/
theorem projects_service_isolated {below : NodeId} {routers : NodeId → Service Store}
    (request : Request) {uri segment s : String} {passed left : List String}
    (hrouting : request.routing = ⟨uri, passed, segment :: s :: left⟩)
    (hbelow : ∀ c, Names (Percent.decodeSegment segment) c →
      Isolated (others (Percent.decodeSegment segment)) (Alike method (Percent.decodeSegment segment))
        (fun _ => True)
        (routers below (Resource.nested request c ⟨uri, passed ++ [segment], s :: left⟩))) :
    Isolated (others (Percent.decodeSegment segment)) (Alike method (Percent.decodeSegment segment))
      (fun _ => True) ((projects fresh options (.ofRouter below)).service routers request) := by
  have hentity (i : Uuid) : Names (Percent.decodeSegment segment)
      ((projects fresh options (.ofRouter below)).resourceContext request
        (Percent.decodeSegment segment) i) := by
    change PathParams.get (.add _ _ _) _ = _
    rw [PathParams.get_add, if_pos rfl]
  exact .interpret (Resource.serve_nested_meets hrouting hentity) fun q hq =>
    projects_answer_isolated fresh options hbelow q hq

/-! ## Routers -/

/-- A node with nothing registered at it. -/
def bare : Node (Handler Store) (Middleware Store) := .empty

theorem routers_eq : routers fresh options =
    (⟨[{ bare with literals := [("notes", 1)] },
      { bare with fallback := some (notes fresh options).handler },
      { bare with literals := [("api", 3)], middlewares := [logRequests] },
      { bare with literals := [("v1", 4)] },
      { bare with literals := [("projects", 5)] },
      { bare with fallback := some (projects fresh options (.ofRouter 0)).handler }]⟩, 2) := by
  rfl

theorem dispatch_projects (method uri : String) (passed rest : List String) (params : PathParams) :
    (routers fresh options).1.dispatch 2 method ⟨uri, passed, "api" :: "v1" :: "projects" :: rest⟩ params =
      some ⟨(projects fresh options (.ofRouter 0)).handler,
        ⟨uri, passed ++ ["api", "v1", "projects"], rest⟩, params, [logRequests], false⟩ := by
  rw [routers_eq]
  cases rest <;>
    simp [Trie.dispatch, Trie.walk, Trie.visit, Trie.node, Trie.settle, bare, Node.empty, Node.literal?,
      Node.method?, Trie.lookup_empty]

theorem dispatch_notes (method uri : String) (passed rest : List String) (params : PathParams) :
    (routers fresh options).1.dispatch 0 method ⟨uri, passed, "notes" :: rest⟩ params =
      some ⟨(notes fresh options).handler, ⟨uri, passed ++ ["notes"], rest⟩, params, [], false⟩ := by
  rw [routers_eq]
  cases rest <;>
    simp [Trie.dispatch, Trie.walk, Trie.visit, Trie.node, Trie.settle, bare, Node.empty, Node.literal?,
      Node.method?, Trie.lookup_empty]

/-! ## The service -/

variable {request : Request}

/-- The router below the projects keeps the parameters of the path. -/
theorem below_isolated {uri : String} {passed rest : List String} (depth : Nat) (request : Request)
    (hrouting : request.routing = ⟨uri, passed, "notes" :: rest⟩)
    (hcontext : Names raw (Resource.context request)) :
    Isolated (others raw) (Alike request.method raw) (fun _ => True)
      (Router.services (routers fresh options).1 (depth + 1) 0 request) := by
  have hroute := dispatch_notes fresh options request.method uri passed rest request.attributes.pathParams
  rw [← hrouting] at hroute
  refine Router.services_isolated hroute rfl (Handler.recovering_isolated ?_)
  exact notes_service_isolated fresh options (Router.Route.request _ request) hcontext

/-- Nested routes find the parameters of the path in the context of their request. -/
theorem param?_nested (request : Request) (c : Context) (cursor : PathCursor) (name : String) :
    (Resource.context (Resource.nested request c cursor)).param? name = c.param? name := rfl

theorem projects_isolated {uri p : String} {passed rest : List String} (depth : Nat) (request : Request)
    (hrouting : request.routing = ⟨uri, passed, p :: "notes" :: rest⟩) :
    Isolated (others (Percent.decodeSegment p)) (Alike request.method (Percent.decodeSegment p))
      (fun _ => True) ((projects fresh options (.ofRouter 0)).service
        (Router.services (routers fresh options).1 (depth + 1)) request) := by
  refine projects_service_isolated fresh options request hrouting fun c hc => ?_
  refine below_isolated fresh options depth (Resource.nested request c _) rfl ?_
  rw [Names, param?_nested]
  exact hc

theorem wrap_projects (routes : Handler Store) (routers : NodeId → Service Store) :
    Router.wrap ((projects fresh options routes).handler.serve routers) [logRequests] = .ok fun request =>
      (Handler.recovering ((projects fresh options routes).service routers) request).bind fun r =>
        .log (.info s!"{request.method} {request.path} -> {Status.text r.status}") (.done r) := rfl

/-- A request for the notes of a project comes through the router of all projects and the one below. -/
theorem services_isolated {uri p : String} {passed rest : List String} (depth : Nat)
    (hrouting : request.routing = ⟨uri, passed, "api" :: "v1" :: "projects" :: p :: "notes" :: rest⟩) :
    Isolated (others (Percent.decodeSegment p)) (Alike request.method (Percent.decodeSegment p))
      (fun _ => True) (Router.services (routers fresh options).1 (depth + 2) 2 request) := by
  have hroute := dispatch_projects fresh options request.method uri passed (p :: "notes" :: rest)
    request.attributes.pathParams
  rw [← hrouting] at hroute
  refine Router.services_isolated hroute (wrap_projects fresh options _ _) ?_
  refine Isolated.bind (Handler.recovering_isolated ?_) fun response _ => ?_
  · exact projects_isolated fresh options depth (Router.Route.request _ request) rfl
  · exact .log _ (.done trivial)

theorem serve_eq (request : Request) : ∃ depth, serve fresh options request =
    Router.services (routers fresh options).1 (depth + 2) 2 request := by
  -- Of six nodes, each may be passed once for each segment that is left, so both routers may be passed.
  refine ⟨6 * request.routing.left.length + 5, ?_⟩
  rfl

theorem isolated_of_serve {p : String} {rest : List String} (hrouting : request.attributes.routing = none)
    (hpath : Path.segments request.path = "api" :: "v1" :: "projects" :: p :: "notes" :: rest) :
    Isolated (others (Percent.decodeSegment p)) (Alike request.method (Percent.decodeSegment p))
      (fun _ => True) (serve fresh options request) := by
  have hstart : request.routing =
      ⟨request.path, [], "api" :: "v1" :: "projects" :: p :: "notes" :: rest⟩ := by
    rw [Request.routing, hrouting, ← hpath]
    rfl
  obtain ⟨depth, hserve⟩ := serve_eq fresh options request
  rw [hserve]
  exact services_isolated fresh options depth hstart

theorem not_writes {method : String} (h : method = "GET" ∨ method = "DELETE") :
    ¬Resource.Writes method := by
  rcases h with rfl | rfl
  · rintro (h | h | h) <;> simp at h
  · rintro (h | h | h) <;> simp at h

/-- A request whose clean path is that of the notes of a project, or lies below it, leaves all projects and
the notes of every other project as they are. If it reads or deletes, then stores with the same projects
and the same notes of this project give it the same response. -/
theorem notes_isolated {p : String} {rest : List String} (hrouting : request.attributes.routing = none)
    (hpath : Path.segments request.path = "api" :: "v1" :: "projects" :: p :: "notes" :: rest) :
    (∀ s, (run (serve fresh options request) s).state.projects = s.projects ∧
      ∀ q, Uuid.parse (Percent.decodeSegment p) ≠ .ok q →
        (run (serve fresh options request) s).state.notesOf q = s.notesOf q) ∧
    (request.method = "GET" ∨ request.method = "DELETE" → ∀ s₁ s₂ : Store, s₁.projects = s₂.projects →
      (∀ q, Uuid.parse (Percent.decodeSegment p) = .ok q → s₁.notesOf q = s₂.notesOf q) →
      (run (serve fresh options request) s₁).result = (run (serve fresh options request) s₂).result) := by
  have hisolated := isolated_of_serve fresh options hrouting hpath
  constructor
  · intro s
    exact Store.others_eq_iff.mp (hisolated.preserves s)
  · intro hmethod s₁ s₂ hprojects hnotes
    have halike : Alike request.method (Percent.decodeSegment p) s₁ s₂ :=
      ⟨hprojects, hnotes, fun hwrites => absurd hwrites (not_writes hmethod)⟩
    simpa only [outcome] using (hisolated.agrees s₁ s₂ halike).1

section Neighbours

/-- Two projects, of which the second has a note. -/
def neighbours : Store :=
  ⟨[⟨some (numbered 0), "p"⟩, ⟨some (numbered 1), "q"⟩], [⟨some (numbered 2), numbered 1, "n"⟩], 0⟩

/-- Deletes the note of the second project as one of the first. -/
def misplaced : Request :=
  racingRequest "DELETE"
    "/api/v1/projects/00000000-0000-0000-0000-000000000000/notes/00000000-0000-0000-0000-000000000002" ""

theorem notes_isolated_misplaced :
    misplaced.attributes.routing = none ∧
      Path.segments misplaced.path = ["api", "v1", "projects", "00000000-0000-0000-0000-000000000000",
        "notes", "00000000-0000-0000-0000-000000000002"] ∧
      (run (serve numbered .defaults misplaced) neighbours).state.notesOf (numbered 1) =
        [⟨some (numbered 2), numbered 1, "n"⟩] ∧
      (run (serve numbered .defaults misplaced) neighbours).result =
        (run (serve numbered .defaults misplaced) { neighbours with notes := [] }).result := by
  have hpath : Path.segments misplaced.path = ["api", "v1", "projects",
      "00000000-0000-0000-0000-000000000000", "notes", "00000000-0000-0000-0000-000000000002"] := by
    decide +kernel
  have hparse : Uuid.parse (Percent.decodeSegment "00000000-0000-0000-0000-000000000000") =
      .ok (numbered 0) := by
    decide +kernel
  obtain ⟨hkept, hsame⟩ := notes_isolated numbered .defaults rfl hpath
  refine ⟨rfl, hpath, ?_, ?_⟩
  · refine ((hkept neighbours).2 (numbered 1) ?_).trans (by decide)
    rw [hparse]
    decide
  · refine hsame (Or.inr rfl) neighbours { neighbours with notes := [] } rfl fun q hq => ?_
    obtain rfl := Except.ok.inj (hparse.symm.trans hq)
    decide

end Neighbours

end Service

end WebResource.Sample
