import WebResource.Proofs.Interleaving.Invariants
import WebResource.Proofs.Resource.Contract
import WebResource.Proofs.Router.Serving
import WebResource.Proofs.Sample.Store
import WebResource.Sample.Service

namespace WebResource

/-!
# The service keeps its store consistent

Whatever requests are served side by side, each step on the store keeps it consistent, since no step
relies on what an earlier step of the same request has found.
-/

namespace Router

variable {S : Type} {t : Routes S}

theorem registered_snd (r : Option RouteTaken × Routes S) : (registered r).2 = r.2 := by
  obtain ⟨_ | _, _⟩ := r <;> rfl

theorem holds_mount {p : Handler S → Prop} {q : Middleware S → Prop} (ht : t.Holds p q) (root : NodeId)
    (path : String) {h : Handler S} (hrouter : h.router = none) (hp : p h) :
    (mount t root path h).2.Holds p q := by
  unfold mount
  rw [hrouter]
  simp only [registered_snd]
  exact ht.mount root path hp

end Router

/-- An entity that is exchanged as a document of another type has been made of such a document. -/
theorem Mapping.exists_of_ofDocument_through {E D : Type} [Document D]
    {forward : Context → E → Mapped D} {backward : Context → D → Mapped E} {c : Context} {j : Json} {e : E}
    (h : (Mapping.through forward backward).ofDocument c j = .ok e) :
    ∃ d, Document.ofJson j = .ok d ∧ backward c d = .ok e := by
  change (Mapped.ofExcept (Document.ofJson j)).bind (backward c) = .ok e at h
  cases hread : (Document.ofJson j : Except TypeError D) with
  | error x =>
      rw [hread] at h
      cases h
  | ok d =>
      rw [hread] at h
      exact ⟨d, rfl, h⟩

namespace Sample

/-- A step that keeps a consistent store consistent, if it makes only new identifiers. -/
def Store.Keeping (fresh : Nat → Uuid) (step : Store → Store) : Prop :=
  ∀ s, s.Consistent → s.DrawsNew fresh step → (step s).Consistent

namespace Store

variable {fresh : Nat → Uuid} {α : Type}

theorem keeping_id : Keeping fresh id := fun _ h _ => h

theorem step_asks {f : Store → α × Store} (h : Keeping fresh fun s => (f s).2) :
    Prog.Asks (Keeping fresh) (Act.step f) :=
  (Prog.Asks.call h).bind fun _ => .done _

theorem read_asks (f : Store → α) : Prog.Asks (Keeping fresh) (Act.step fun s => (f s, s)) :=
  step_asks keeping_id

theorem modify_asks {f : Store → Store} (h : Keeping fresh f) :
    Prog.Asks (Keeping fresh) (Act.modify f) :=
  (Prog.Asks.call h).bind fun _ => .done _

/-- A stream that is read once is released without a change. -/
theorem read_meets {E : Type} (f : Store → List (Fetched E)) :
    Prog.Meets (.plain (Keeping fresh)) (fun stream : EntityStream Store E => Keeping fresh stream.release)
      (Act.step fun s => (⟨f s, id⟩, s)) :=
  (Prog.Meets.call (C := .plain (Keeping fresh)) keeping_id).bind fun _ _ => .done keeping_id

theorem checked_asks {p : Project} {x : Act Store (Except StorageError α)}
    (h : p.IsNamed → Prog.Asks (Keeping fresh) x) : Prog.Asks (Keeping fresh) (checked p x) := by
  unfold checked
  split
  · exact .done _
  · next hvalid => exact h (Project.invalid_eq_none_iff.mp hvalid)

theorem within_asks {c : Context} {x : Uuid → Act Store (Except StorageError α)}
    (h : ∀ project, projectOf c = .ok project → Prog.Asks (Keeping fresh) (x project)) :
    Prog.Asks (Keeping fresh) (within c x) := by
  unfold within
  split
  · exact .done _
  · next project hproject => exact h project hproject

end Store

namespace Service

open Resource (Call)

variable (fresh : Nat → Uuid) (options : ResourceOptions)

/-! ## Projects -/

theorem requireProject_asks (c : Context) (i : Uuid) :
    Prog.Asks (Store.Keeping fresh) (requireProject c i) :=
  (Store.read_asks _).bind fun _ => .done _

theorem makesFit_projects (routes : Handler Store) :
    (projects fresh options routes).MakesFit fun _ _ => True :=
  ⟨fun _ _ _ _ _ => trivial, fun _ _ _ _ _ _ => trivial⟩

theorem projects_answer_meets {routes : Handler Store} {routers : NodeId → Service Store}
    (hroutes : Service.Takes (Store.Keeping fresh) (routes.serve routers))
    (q : Call Store Project Uuid) (hq : (Call.contract Uuid (fun _ _ => True) (Store.Keeping fresh)).asks q) :
    Prog.Meets (.plain (Store.Keeping fresh))
      ((Call.contract Uuid (fun _ _ => True) (Store.Keeping fresh)).grants q)
      ((projects fresh options routes).answer routers q) := by
  cases q with
  | create c p =>
      refine .of_asks (Store.checked_asks fun hp => Prog.Asks.bind (Store.step_asks ?_) fun r => ?_)
      · exact fun s h hnew => h.createProject hp hnew
      · cases r with
        | ok p => exact .log _ (.done _)
        | error e => exact .done _
  | index c => exact Store.read_meets _
  | find c i => exact .of_asks (Store.read_asks _)
  | update c p =>
      exact .of_asks (Store.checked_asks fun hp => Store.step_asks fun s h _ => h.updateProject hp)
  | destroy c i => exact .of_asks (Store.step_asks fun s h _ => h.deleteProject i)
  | destroyAll c => exact .of_asks (Store.step_asks fun s _ _ => Store.Consistent.deleteProjects s)
  | prepareCollection c => exact .done trivial
  | prepareResource c i => exact .of_asks (requireProject_asks fresh c i)
  | delegate request => exact .of_asks (hroutes request)
  | release f => exact .of_asks (Store.modify_asks hq)

theorem projects_takes {routes : Handler Store} (hroutes : routes.Takes (Store.Keeping fresh)) :
    (projects fresh options routes).handler.Takes (Store.Keeping fresh) := fun routers hrouters =>
  Handler.recovering_takes fun request => Resource.service_asks (makesFit_projects fresh options routes)
    request (projects_answer_meets fresh options (hroutes routers hrouters))

/-! ## Notes -/

/-- A note that belongs to the project of the request and is short enough. -/
def NoteFits (c : Context) (n : Note) : Prop := Store.projectOf c = .ok n.project ∧ n.IsShort

theorem noteFits_of_mapping {c : Context} {document : Json} {n : Note}
    (h : noteMapping.ofDocument c document = .ok n) : NoteFits c n := by
  obtain ⟨d, -, hmade⟩ := Mapping.exists_of_ofDocument_through h
  cases hproject : Store.projectOf c with
  | error e => simp [hproject] at hmade
  | ok project =>
      cases hnote : Note.ofDocument project d with
      | error why => simp [hproject, hnote] at hmade
      | ok n' =>
          simp only [hproject, hnote, Mapped.ok.injEq] at hmade
          obtain ⟨hsame, hshort⟩ := Note.fits_of_ofDocument hnote
          exact hmade ▸ ⟨hsame ▸ hproject, hshort⟩

theorem makesFit_notes : (notes fresh options).MakesFit NoteFits where
  made c mediaType document n h := noteFits_of_mapping h
  identified c i before n hbefore h := by
    cases h
    exact hbefore

theorem notes_answer_meets {routers : NodeId → Service Store}
    (q : Call Store Note Uuid) (hq : (Call.contract Uuid NoteFits (Store.Keeping fresh)).asks q) :
    Prog.Meets (.plain (Store.Keeping fresh))
      ((Call.contract Uuid NoteFits (Store.Keeping fresh)).grants q)
      ((notes fresh options).answer routers q) := by
  cases q with
  | create c n =>
      exact .of_asks (Store.within_asks fun project _ =>
        Store.step_asks fun s h hnew => h.createNote hq.2 hnew)
  | index c =>
      change Prog.Meets _ _ (Store.noteStream c)
      unfold Store.noteStream
      split
      · exact .done Store.keeping_id
      · exact Store.read_meets _
  | find c i => exact .of_asks (Store.within_asks fun project _ => Store.read_asks _)
  | update c n =>
      refine .of_asks (Store.within_asks fun project hproject => Store.step_asks fun s h _ => ?_)
      have hsame : n.project = project := Except.ok.inj (hq.1.symm.trans hproject)
      exact h.updateNote hsame hq.2
  | destroy c i =>
      exact .of_asks (Store.within_asks fun project _ => Store.step_asks fun s h _ => h.deleteNote project i)
  | destroyAll c => exact .panic _
  | prepareCollection c => exact .done trivial
  | prepareResource c i => exact .done trivial
  | delegate request => exact .panic _
  | release f => exact .of_asks (Store.modify_asks hq)

theorem notes_takes : (notes fresh options).handler.Takes (Store.Keeping fresh) := fun _ _ =>
  Handler.recovering_takes fun request => Resource.service_asks (makesFit_notes fresh options) request
    (notes_answer_meets fresh options)

/-! ## The service -/

theorem logRequests_takes : Middleware.Takes (Store.Keeping fresh) logRequests := by
  intro s s' h hs
  cases h
  exact fun request => (hs request).bind fun _ => .log _ (.done _)

theorem holds_routers : (routers fresh options).1.Holds (Handler.Takes (Store.Keeping fresh))
    (Middleware.Takes (Store.Keeping fresh)) := by
  unfold routers
  simp only
  refine Router.holds_mount (.addMiddlewares (.addNode ?_) _ ?_) _ _ rfl
    (projects_takes fresh options fun _ hrouters => hrouters _)
  · exact Router.holds_mount Trie.holds_empty.addNode _ _ rfl (notes_takes fresh options)
  · simpa using logRequests_takes fresh

theorem serve_takes : Service.Takes (Store.Keeping fresh) (serve fresh options) := by
  intro request
  have ht := holds_routers fresh options
  unfold serve
  generalize routers fresh options = built at ht
  obtain ⟨t, root⟩ := built
  have hroot : (Handler.ofRouter root).Takes (Store.Keeping fresh) := fun _ hrouters => hrouters root
  exact hroot.call ht request

/-! ## Requests side by side -/

/-- Whatever requests are served side by side from the empty store on, the store is consistent after each
step, if no identifier is made that is in use already. -/
theorem consistent_of_run {ι : Type} [DecidableEq ι] (requests : ι → Request)
    {σ : List (ι × (Store → Store))} {p : Pool (Store → Store) (fun _ => Store) (Response Store) ι}
    {s : Store}
    (hrun : Pool.Run Prog.call (fun i => serve fresh options (requests i)) Store.empty σ p s)
    (hnew : Pool.Along Prog.call (fun s step => s.DrawsNew fresh step) Store.empty σ) : s.Consistent :=
  have hstep (step : Store → Store) (s : Store) (hkeeping : Store.Keeping fresh step)
      (hnew : s.DrawsNew fresh step) (h : s.Consistent) :
      (Act.outcome (Prog.call (R := fun _ => Store) step) s).2.Consistent := hkeeping s h hnew
  hrun.invariant_along hstep (fun i => serve_takes fresh options (requests i)) hnew
    Store.consistent_empty

instance (s : Store) (i : Uuid) : Decidable (s.Uses i) :=
  inferInstanceAs (Decidable ((∃ p ∈ s.projects, p.id = some i) ∨ ∃ n ∈ s.notes, n.id = some i))

instance (s : Store) (step : Store → Store) : Decidable (s.DrawsNew fresh step) :=
  inferInstanceAs (Decidable ((step s).drawn ≠ s.drawn → ¬s.Uses (fresh s.drawn)))

section Racing

def numbered (n : Nat) : Uuid := ⟨BitVec.ofNat 128 n⟩

def racingRequest (method path body : String) : Request :=
  ⟨method, ⟨none, none, path, none⟩, [], [.ok (Utf8.encode body)], .empty⟩

/-- Requests to create a project, to create a note in it, and to delete it. -/
def racingRequests : Fin 3 → Request
  | 0 => racingRequest "POST" "/api/v1/projects" "\x7b\"name\":\"p\"\x7d"
  | 1 => racingRequest "POST" "/api/v1/projects/00000000-0000-0000-0000-000000000000/notes"
      "\x7b\"text\":\"n\"\x7d"
  | 2 => racingRequest "DELETE" "/api/v1/projects/00000000-0000-0000-0000-000000000000" ""

/-- The run of the requests in which they take turns as a list says. -/
def racingRun (schedule : List (Fin 3)) : List (Fin 3 × (Store → Store)) ×
    Pool (Store → Store) (fun _ => Store) (Response Store) (Fin 3) × Store :=
  Pool.play Prog.call schedule (fun i => serve numbered .defaults (racingRequests i)) Store.empty

theorem run_racingRun (schedule : List (Fin 3)) :
    Pool.Run Prog.call (fun i => serve numbered .defaults (racingRequests i)) Store.empty
      (racingRun schedule).1 (racingRun schedule).2.1 (racingRun schedule).2.2 :=
  Pool.run_play _ schedule _ _

/-- The note is created while its project is about to be deleted. -/
def overlapping : List (Fin 3) := [0, 1, 2, 1]

theorem consistent_of_run_overlapping :
    Pool.Along Prog.call (fun s step => s.DrawsNew numbered step) Store.empty
        (racingRun overlapping).1 ∧
      (racingRun overlapping).2.2 =
        ⟨[⟨some (numbered 0), "p"⟩], [⟨some (numbered 1), numbered 0, "n"⟩], 2⟩ ∧
      (racingRun overlapping).2.2.Consistent := by
  have hnew : Pool.Along Prog.call (fun s step => s.DrawsNew numbered step) Store.empty
      (racingRun overlapping).1 := by
    decide +kernel
  refine ⟨hnew, ?_, ?_⟩
  · decide +kernel
  · exact consistent_of_run numbered .defaults racingRequests (run_racingRun overlapping) hnew

/-- The project is deleted after it was found for the note, which then is not created. -/
example : (racingRun [0, 1, 2, 2, 2, 1]).2.2 = ⟨[], [], 1⟩ := by decide +kernel

end Racing

end Service

end Sample

end WebResource
