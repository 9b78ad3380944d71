/-
# Requests and replies as documents

A request is a document with a method, a path, a query, a body and the time at which it comes.  Its
reply is a document with a status and either a body or the calls that draw a picture.

Everything that a web server would do between the two is outside: a body has been read, a query
has been cut into names and texts, and time is what the request says it is, so that an exchange is
a function of the server and the document.  A request whose path stands for no operation is
answered without changing anything but the clock.
-/
import PathAtlas.Service.Routes

namespace PathAtlas.Service

def Reply.toJson : Reply → Json
  | .document status body => .mapping [("status", .nat status), ("body", body)]
  | .picture calls =>
    .mapping
      [("status", .nat 200), ("content_type", .text "image/png"),
       ("drawn", .list (calls.map Drawing.Call.toJson))]

/-- What comes with a request that is given as a document. -/
def Inquiry.ofJson (doc : Json) (node : String) : Inquiry :=
  { query :=
      match doc.entry "query" with
      | .mapping es => es.map fun (k, v) => (k, v.display)
      | _ => []
    body := .ok (doc.entry "body")
    node }

/-- The server at the time that a request tells; without one its time stands still. -/
def Server.atTimeOf (s : Server) (doc : Json) : Server :=
  match (doc.entry "time").toDecimal with
  | .ok now => s.setClock now
  | .error _ => s

/-- Answers a request that is given as a document. -/
def Server.exchange (s : Server) (doc : Json) : Json × Server :=
  let s := s.atTimeOf doc
  match route? (doc.entry "method").display (doc.entry "path").display with
  | none => ((Reply.trouble 404 "Not Found").toJson, s)
  | some (operation, node) =>
    let (reply, s) := s.answer operation (.ofJson doc node)
    (reply.toJson, s)

end PathAtlas.Service
