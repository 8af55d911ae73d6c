import WebResource.Message.Basic
import WebResource.Sample.Kind

namespace WebResource.Sample

/-!
# Scripted behavior

Operations that fail, panic or answer with what they are told to, and hooks that deny a request,
panic or record something in the context.
-/

inductive Behavior (E : Type) where
  | fail (e : StorageError)
  | panic (p : Payload)
  | returns (e : Option E)
  | items (fetched : List (Fetched E))
  /-- Answers with what the operation sees in its context. -/
  | echo

namespace Behavior

variable {S E I : Type} [Document E] [Identifier I]

def pairJson (p : String × String) : Json := .arr [.str p.1, .str p.2]

def seen (c : Context) (i : Option I) : Json :=
  let query := c.values.query.getD []
  .obj [("id", .ofOption (i.map Identifier.toJson)), ("id_key", .ofOption (c.value? "id_key")),
    ("params", .ofFields (c.params.map fun (k, v) => (k, .str v))),
    ("q", .ofText? ((query.find? (·.1 == "q")).map (·.2))), ("query", .arr (query.map pairJson)),
    ("tag", .ofOption (c.value? "tag"))]

def seenEntity (c : Context) (i : Option I) : Option E := (Document.read (seen c i)).toOption

def mutation {α : Type} (done : α) : Behavior E → Act S (Except StorageError α)
  | .fail e => .done (.error e)
  | .panic p => .panic p
  | _ => .done (.ok done)

def create (b : Behavior E) (_ : Context) (e : E) : Act S (Except StorageError E) :=
  match b with
  | .returns (some e) => .done (.ok e)
  | b => mutation e b

def find (b : Behavior E) (c : Context) (i : I) : Act S (Except StorageError (Option E)) :=
  match b with
  | .returns e => .done (.ok e)
  | .echo => .done (.ok (seenEntity c (some i)))
  | b => mutation none b

def index (I : Type) [Identifier I] (b : Behavior E) (c : Context) : Act S (EntityStream S E) :=
  match b with
  | .items fetched => .done ⟨fetched, id⟩
  | .fail e => .done ⟨[.error e], id⟩
  | .panic p => .panic p
  | .returns e => .done ⟨(e.map .entity).toList, id⟩
  | .echo => .done ⟨((seenEntity c (none : Option I)).map .entity).toList, id⟩

/-- Operations with scripted behavior, and for the rest those of `ops` that are offered, all by
name. -/
def override (scripted : String → Option (Behavior E)) (offered : String → Bool)
    (ops : Operations S E I) : Operations S E I :=
  let ifOffered {α : Type} (name : String) (f : Option α) : Option α := if offered name then f else none
  { create := (scripted "create").map (·.create)
    index := (scripted "index").map (·.index I)
    find := (scripted "show").map (·.find)
    update := (scripted "update").map fun b _ _ => b.mutation ()
    destroy := (scripted "destroy").map fun b _ _ => b.mutation ()
    destroyAll := (scripted "destroy_all").map fun b _ => b.mutation () : Operations S E I }.orElse
  { create := ifOffered "create" ops.create
    index := ifOffered "index" ops.index
    find := ifOffered "show" ops.find
    update := ifOffered "update" ops.update
    destroy := ifOffered "destroy" ops.destroy
    destroyAll := ifOffered "destroy_all" ops.destroyAll }

end Behavior

inductive Hook where
  | deny (e : ApiError)
  | panic (p : Payload)
  | tag (text : String)
  | param (name value : String)

namespace Hook

variable {S I : Type} [Identifier I]

def run (h : Hook) (c : Context) (ending : String) : Act S (Except ApiError Context) :=
  match h with
  | .deny e => .done (.error e)
  | .panic p => .panic p
  | .tag t => .done (.ok (c.withValue "tag" (.str (t ++ ending))))
  | .param name value => .done (.ok (c.withParam name value))

def forCollection (h : Hook) (c : Context) : Act S (Except ApiError Context) := h.run c ""

/-- The tag is followed by the document of the identifier. -/
def forResource (h : Hook) (c : Context) (i : I) : Act S (Except ApiError Context) :=
  h.run c (Identifier.toJson i).text

end Hook

/-- An error handler that answers in a text format of its own. -/
def textErrors {S : Type} (e : ApiError) (n : MediaCodec) (instanceUri : String) : Response S :=
  .ofBytes 418 "text/x-error"
    (Utf8.encode s!"{e.kind.code}|{e.detail}|{n.mediaType}|{instanceUri}")

end WebResource.Sample
