import WebResource.Proofs.Client.Paths
import WebResource.Proofs.Client.Sending
import WebResource.Proofs.Resource.Confinement

namespace WebResource.Client

/-!
# Identifiers on their way to a resource

A client names an entity by one segment behind the URL of the collection. The segment arrives as it
was written, unless a clean path has no such segment, or the URL of the collection has a query or a
fragment that swallows it. Then the request is one for something else, and a deletion may take the
whole collection.
-/

variable {S E : Type}

/-! ## The resource behind a router -/

section Server

variable {I : Type} {t : Routes S} {root : NodeId} {r : Resource S E I} {P : Resource.Call S E I → Prop}

/-- A request that a router passes to a resource, which asks only for what is allowed while it serves
the request. -/
def Passes (t : Routes S) (root : NodeId) (r : Resource S E I) (P : Resource.Call S E I → Prop)
    (request : Request) : Prop :=
  ∃ route routers,
    t.dispatch root request.method request.routing request.attributes.pathParams = some route ∧
    route.handler = r.handler ∧
    (Handler.ofRouter root).call t request = Handler.recovering
      (fun _ => r.handler.serve routers (Router.Route.request route request)) request ∧
    Prog.Asks P (r.serve (Router.Route.request route request))

/-- A call that ends before anything is sent, or whose request a router passes to a resource, which
asks only for what is allowed. -/
def Confined {α : Type} (t : Routes S) (root : NodeId) (r : Resource S E I)
    (P : Resource.Call S E I → Prop) (x : Transport S → Calling S α) : Prop :=
  Unsent x ∨ ∃ c q, Sends x c q ∧ Passes t root r P q.toRequest

theorem Passes.mono {P' : Resource.Call S E I → Prop} {request : Request} (hP : ∀ q, P q → P' q)
    (h : Passes t root r P request) : Passes t root r P' request := by
  obtain ⟨route, routers, hdispatch, hhandler, hcall, hasks⟩ := h
  exact ⟨route, routers, hdispatch, hhandler, hcall, hasks.mono hP⟩

theorem Confined.mono {α : Type} {P' : Resource.Call S E I → Prop} {x : Transport S → Calling S α}
    (hP : ∀ q, P q → P' q) (h : Confined t root r P x) : Confined t root r P' x := by
  rcases h with h | ⟨c, q, hq, hpasses⟩
  · exact Or.inl h
  · exact Or.inr ⟨c, q, hq, hpasses.mono hP⟩

theorem routing_toRequest {q : TransportRequest} {segments : List String}
    (h : Path.segments q.uri.path = segments) :
    q.toRequest.routing = ⟨q.uri.path, [], segments⟩ := h ▸ rfl

theorem pathParams_toRequest (q : TransportRequest) :
    q.toRequest.attributes.pathParams = .empty := rfl

/-- The request for an entity below the path of a resource is passed to the resource, and concerns
only the entity. -/
theorem passes_entity {path : List String} {q : TransportRequest} {segment : String} {i : I}
    (hserves : t.Serves root path r.handler) (hpath : Path.segments q.uri.path = path ++ [segment])
    (hid : r.ids.parse (Percent.decodeSegment segment) = .ok i) :
    Passes t root r (Resource.Call.Concerns r.idLens i) q.toRequest := by
  obtain ⟨params, hdispatch⟩ := hserves q.toRequest.method q.uri.path [segment]
  rw [← routing_toRequest hpath, ← pathParams_toRequest q] at hdispatch
  obtain ⟨routers, hcall⟩ := Handler.call_ofRouter hdispatch rfl
  exact ⟨_, routers, hdispatch, rfl, hcall, Resource.serve_entity_asks rfl hid⟩

/-- A request to delete at the path of a resource makes it destroy all entities, if it can. -/
theorem destroyAll_of_passes {path : List String} {q : TransportRequest}
    (hserves : t.Serves root path r.handler) (hpath : Path.segments q.uri.path = path)
    (hmethod : q.method = "DELETE") (hoffered : r.operations.destroyAll.isSome = true)
    (h : Passes t root r P q.toRequest) : ∃ c, P (.destroyAll c) := by
  obtain ⟨route, routers, hroute, -, -, hasks⟩ := h
  obtain ⟨params, hdispatch⟩ := hserves q.toRequest.method q.uri.path []
  rw [List.append_nil, ← routing_toRequest hpath, ← pathParams_toRequest q] at hdispatch
  rw [hdispatch] at hroute
  cases hroute
  exact ⟨_, Resource.destroyAll_of_serve_asks rfl hmethod hoffered hasks⟩

end Server

/-! ## Calls on one entity -/

section Call

variable {k : Client S E String} {c : Context} {i base : String} {v : Uri}

theorem entityUrl_eq (hids : k.ids = .text) (hbase : k.collectionUrl c = .ok base) :
    k.entityUrl c i = .ok (Text.dropEnd '/' base ++ "/" ++ Percent.encodeSegment i) := by
  simp only [entityUrl, hbase, hids, IdFormat.text]

/-- A call on an entity has nothing to send if no request can be made for its URL. -/
def Unsendable (k : Client S E String) (base i : String) : Prop :=
  ∀ method body q, buildRequest method (Text.dropEnd '/' base ++ "/" ++ Percent.encodeSegment i)
    k.codec.mediaType body ≠ .ok q

/-- The calls on the entity with an identifier, each of them confined at every server that serves a
resource with identifiers of the same form at a path. -/
def EntityCallsConfined (k : Client S E String) (c : Context) (i : String) (path : List String)
    (P : Resource S E String → Resource.Call S E String → Prop) : Prop :=
  ∀ (t : Routes S) (root : Nat) (r : Resource S E String), r.ids = .text →
    t.Serves root path r.handler →
      Confined t root r (P r) (fun send => (k.carriedBy send).findById c i) ∧
      Confined t root r (P r) (fun send => (k.carriedBy send).deleteById c i) ∧
      ∀ e, k.idLens.get e = some i → Confined t root r (P r) fun send => (k.carriedBy send).update c e

theorem confined_of_sendsTo {α : Type} {I : Type} {k : Client S E String} {t : Routes S} {root : Nat}
    {r : Resource S E I} {P : Resource.Call S E I → Prop} {url : String}
    {x : Transport S → Calling S α} (hx : SendsTo k url x)
    (h : ∀ method body q, buildRequest method url k.codec.mediaType body = .ok q →
      Passes t root r P q.toRequest) : Confined t root r P x := by
  rcases hx with hx | ⟨c, method, body, q, hq, hsends⟩
  · exact Or.inl hx
  · exact Or.inr ⟨c, q, hsends, h method body q hq⟩

/-- Calls on an entity that is addressable reach that entity and nothing else. -/
theorem entityCallsConfined_of_addressable (hids : k.ids = .text)
    (hbase : k.collectionUrl (k.contextHook c) = .ok base)
    (hv : Uri.parse (Text.dropEnd '/' base ++ "/") = .ok v) (h : Addressable base i) :
    EntityCallsConfined k c i (Path.segments v.path) fun r => Resource.Call.Concerns r.idLens i := by
  intro t root r hrids hserves
  have hurl := entityUrl_eq (i := i) hids hbase
  have hpasses : ∀ method body q, buildRequest method
      (Text.dropEnd '/' base ++ "/" ++ Percent.encodeSegment i) k.codec.mediaType body = .ok q →
        Passes t root r (Resource.Call.Concerns r.idLens i) q.toRequest := by
    intro method body q hq
    obtain ⟨u, hu, huri, -, -⟩ := buildRequest_eq method _ body hq
    have hpath : Path.segments q.uri.path =
        Path.segments v.path ++ [Percent.encodeSegment i] := by
      rw [huri, segments_of_addressable hu hv h]
    refine passes_entity hserves hpath ?_
    rw [Percent.decodeSegment_encodeSegment, hrids]
    rfl
  exact ⟨confined_of_sendsTo (findById_sendsTo hurl) hpasses,
    confined_of_sendsTo (deleteById_sendsTo hurl) hpasses,
    fun e he => confined_of_sendsTo (update_sendsTo hurl he) hpasses⟩

/-- A resource that only destroys all entities. -/
def onlyDestroyAll (k : Client S E String) : Resource S E String :=
  { Resource.new k.mappings.fallback k.idLens .text with
    operations := { Operations.none with destroyAll := some fun _ => .done (.ok ()) } }

/-- A call to delete an entity that is not addressable goes to another route, or destroys all
entities, unless nothing can be sent. -/
theorem addressable_of_entityCallsConfined (hids : k.ids = .text)
    (hbase : k.collectionUrl (k.contextHook c) = .ok base)
    (hv : Uri.parse (Text.dropEnd '/' base ++ "/") = .ok v)
    (h : EntityCallsConfined k c i (Path.segments v.path) fun _ q => ∀ c', q ≠ .destroyAll c') :
    Addressable base i ∨ Unsendable k base i := by
  by_contra hnot
  obtain ⟨hi, hsendable⟩ := not_or.mp hnot
  simp only [Unsendable, not_forall, ne_eq, not_not] at hsendable
  obtain ⟨method, body, q, hq⟩ := hsendable
  have hurl := entityUrl_eq (i := i) hids hbase
  obtain ⟨-, -, -, -, hany⟩ := buildRequest_eq method _ body hq
  obtain ⟨q, hq⟩ := hany "DELETE" []
  obtain ⟨u, hu, huri, hmethod, -⟩ := buildRequest_eq "DELETE" _ [] hq
  have hsends : Sends (fun send => (k.carriedBy send).deleteById c i) (k.contextHook c) q := by
    simp only [deleteById_eq hurl]
    exact sends_send k _ "DELETE" _ [] _ hq
  -- The only route of this server is the resource, so the request reaches that or nothing.
  let fresh : Routes S := Trie.empty.addNode.2
  let server : Routes S := (fresh.mount 0 v.path (onlyDestroyAll k).handler).2
  have hserves : server.Serves 0 (Path.segments v.path) (onlyDestroyAll k).handler :=
    Trie.serves_mount (Nat.zero_lt_one) rfl v.path _
      (List.forall₂_same.mpr fun s _ => Trie.takes_refl s)
  obtain ⟨-, hdelete, -⟩ := h server 0 (onlyDestroyAll k) rfl hserves
  rcases hdelete with hunsent | ⟨c', q', hsends', hpasses⟩
  · exact hsends.not_unsent hunsent
  obtain ⟨-, rfl⟩ := hsends.unique hsends'
  have hcollection : Path.segments u.path ≠ Path.segments v.path := by
    intro hpath
    obtain ⟨c', hc'⟩ := destroyAll_of_passes hserves (huri ▸ hpath) hmethod rfl hpasses
    exact hc' c' rfl
  -- An empty segment and `.` leave the path of the collection, `..` leads above it.
  rcases segments_of_not_addressable hu hv hi with hpath | hpath
  · exact hcollection hpath
  · rcases List.eq_nil_or_concat (Path.segments v.path) with hnil | ⟨above, s, hlast⟩
    · exact hcollection (by rw [hpath, hnil]; rfl)
    · rw [List.concat_eq_append] at hlast
      rw [hlast, List.dropLast_concat] at hpath
      obtain ⟨route, routers, hroute, -⟩ := hpasses
      rw [routing_toRequest (huri ▸ hpath), pathParams_toRequest] at hroute
      have hnone := Trie.dispatch_mount_above (t := fresh) Nat.zero_lt_one rfl v.path
        (onlyDestroyAll k).handler (s := s) hlast q.toRequest.method
        q.uri.path
      rw [hnone] at hroute
      cases hroute

end Call

/-- Calls on single entities are faithful to their identifiers exactly as far as the entities are
addressable. For the other identifiers, which are the empty text, `.` and `..`, and for all of them
behind a base URL with a query or a fragment, a call to delete one entity goes to another route or
destroys all entities, unless there is nothing to send. -/
theorem entityCallsConfined_iff_addressable (k : Client S E String) (c : Context) (i base : String)
    (v : Uri) (hids : k.ids = .text) (hbase : k.collectionUrl (k.contextHook c) = .ok base)
    (hv : Uri.parse (Text.dropEnd '/' base ++ "/") = .ok v) :
    (EntityCallsConfined k c i (Path.segments v.path) (fun r => Resource.Call.Concerns r.idLens i) ↔
      Addressable base i ∨ Unsendable k base i) ∧
    (EntityCallsConfined k c i (Path.segments v.path) (fun _ q => ∀ c', q ≠ .destroyAll c') ↔
      Addressable base i ∨ Unsendable k base i) := by
  have hconcerns (r : Resource S E String) (q : Resource.Call S E String)
      (hq : Resource.Call.Concerns r.idLens i q) (c' : Context) : q ≠ .destroyAll c' := by
    rintro rfl
    exact hq
  have hmono (h : EntityCallsConfined k c i (Path.segments v.path)
      fun r => Resource.Call.Concerns r.idLens i) :
      EntityCallsConfined k c i (Path.segments v.path) fun _ q => ∀ c', q ≠ .destroyAll c' := by
    intro t root r hrids hserves
    obtain ⟨hfind, hdelete, hupdate⟩ := h t root r hrids hserves
    exact ⟨hfind.mono (hconcerns r), hdelete.mono (hconcerns r),
      fun e he => (hupdate e he).mono (hconcerns r)⟩
  have hconfined (h : Addressable base i ∨ Unsendable k base i) : EntityCallsConfined k c i
      (Path.segments v.path) fun r => Resource.Call.Concerns r.idLens i := by
    rcases h with h | h
    · exact entityCallsConfined_of_addressable hids hbase hv h
    · intro t root r _ _
      have hurl := entityUrl_eq (i := i) hids hbase
      exact ⟨confined_of_sendsTo (findById_sendsTo hurl) fun m b q hq => absurd hq (h m b q),
        confined_of_sendsTo (deleteById_sendsTo hurl) fun m b q hq => absurd hq (h m b q),
        fun e he => confined_of_sendsTo (update_sendsTo hurl he) fun m b q hq => absurd hq (h m b q)⟩
  have haddressable := addressable_of_entityCallsConfined (i := i) hids hbase hv
  exact ⟨⟨fun h => haddressable (hmono h), hconfined⟩,
    ⟨haddressable, fun h => hmono (hconfined h)⟩⟩

/-- A client of text documents at `/foos/`, which names `a/../b` and cannot name the empty text. -/
theorem entityCallsConfined_foos :
    let k : Client Unit Json String :=
      .new "/foos/" (.ofHandler (.ofRouter 0) .empty) .identity (.byField "id") .text
    EntityCallsConfined k .background "a/../b" ["foos"]
      (fun r => Resource.Call.Concerns r.idLens "a/../b") ∧
    ¬EntityCallsConfined k .background "" ["foos"] fun _ q => ∀ c, q ≠ .destroyAll c := by
  intro k
  have hbase : expandPattern "/foos/" .background = .ok "/foos/" := rfl
  have hdrop : Text.dropEnd '/' "/foos/" ++ "/" = "/foos/" := by decide
  have hempty : Percent.encodeSegment "" = "" := by decide
  have hv : Uri.parse "/foos/" = .ok ⟨none, none, "/foos/", none⟩ := rfl
  have hrequest : ∃ q, buildRequest "DELETE" "/foos/" Media.json [] = .ok q := ⟨_, rfl⟩
  have hcodec : (MediaCodec.lookupOrJson Media.json []).mediaType = Media.json := by decide
  have hmedia : k.codec.mediaType = Media.json := hcodec
  have hpath : Path.segments (Uri.mk none none "/foos/" none).path = ["foos"] := by decide
  have hiff (i : String) := entityCallsConfined_iff_addressable k .background i "/foos/"
    ⟨none, none, "/foos/", none⟩ rfl hbase (by rw [hdrop, hv])
  rw [hpath] at hiff
  refine ⟨(hiff "a/../b").1.mpr (Or.inl ?_), fun h => ?_⟩
  · have hchars : "/foos/".toList = ['/', 'f', 'o', 'o', 's', '/'] := rfl
    refine ⟨?_, (by decide), (by decide), (by decide)⟩
    simp [hchars, Uri.IsPathPart]
  · rcases (hiff "").2.mp h with haddressable | hunsendable
    · exact haddressable.2.1 rfl
    · obtain ⟨q, hq⟩ := hrequest
      refine hunsendable "DELETE" [] q ?_
      rw [hdrop, hempty, String.append_empty, hmedia, hq]

end WebResource.Client
