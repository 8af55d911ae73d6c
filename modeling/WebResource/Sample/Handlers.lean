import WebResource.Router.Handler

namespace WebResource.Sample

/-!
# Sample handlers

Handlers and middlewares that show what reaches them.
-/

variable {S : Type}

/-- The names of the middlewares that a request has passed. -/
def trace (x : Attributes) : List Json :=
  match x.value? "trace" with
  | some (.arr names) => names
  | _ => []

/-- Answers with what it sees of the request. -/
def echo (name : String) : Service S := fun request =>
  let cursor := request.routing
  let seen : Json := .obj [("current", .str cursor.current), ("name", .str name),
    ("params", .ofFields (request.attributes.pathParams.toMap.map fun (k, v) => (k, .str v))),
    ("path_left", .str cursor.pathLeft), ("request_uri", .str cursor.requestUri),
    ("trace", .arr (trace request.attributes)), ("uri", .str request.uri.render)]
  .done ⟨200, [], Response.whole seen.render, id⟩

def panicking (p : Payload) : Service S := fun _ => .panic p

def failing (e : ApiError) : Service S := fun _ => .done e.response

def ping (text : String) : Service S := fun request =>
  let mediaType := "text/plain; charset=utf-8"
  if request.path ≠ "/ping" then .done (.plain 404)
  else if request.method = "GET" then .done (.ofBytes 200 mediaType (Utf8.encode text))
  else if request.method = "HEAD" then .done (.ofBytes 200 mediaType [])
  else .done (.plain 405)

/-- Leaves its name on the way in and on the way out. -/
def tracing (name : String) : Middleware S := fun next => .ok fun request =>
  let x := request.attributes
  let passed := x.insertValue "trace" (.arr (trace x ++ [.str name]))
  (next { request with attributes := passed }).bind fun r =>
    .done { r with headers := r.headers ++ [("x-post", Utf8.encode name)] }

def denying (detail : String) : Middleware S := fun _ => .ok (failing ⟨.forbidden, detail⟩)

def exploding (p : Payload) : Middleware S := fun _ => .error p

end WebResource.Sample
