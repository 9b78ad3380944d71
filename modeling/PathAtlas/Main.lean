/-
# Command line

Serves requests from standard input, one document per line, and writes one reply per line.  The
settings are read from the file that is named first.

Nothing is decided here.  Each line is one exchange of the server, which is a function; this
module only carries the server from one line to the next and lets the input end the loop.  A line
that is no document is answered as a bad request, and settings that cannot be read, or that no
server can be made from, end the program before it has served anything.
-/
import PathAtlas.Json.Printer
import PathAtlas.Service.Exchange

open PathAtlas PathAtlas.Service

partial def serveLines (input output : IO.FS.Stream) (server : Server) : IO Unit := do
  let line ← input.getLine
  if line.isEmpty then return
  let (reply, server) :=
    match Json.parse? line with
    | some doc => server.exchange doc
    | none => ((Reply.trouble 400 "Not a document").toJson, server)
  output.putStrLn (Json.render .wire reply)
  output.flush
  serveLines input output server

/-- The settings in a file; without a file there are none. -/
def readSettings : List String → IO (Option Json)
  | [] => return some .null
  | path :: _ => return Json.parse? (← IO.FS.readFile path)

/-- Starts a server and serves until the input ends. -/
def main (arguments : List String) : IO UInt32 := do
  match ← readSettings arguments with
  | none =>
    IO.eprintln "The settings are not a document"
    return 1
  | some settings =>
    match Server.ofSettings settings 0.0 with
    | .error fault =>
      IO.eprintln fault.message
      return 1
    | .ok server =>
      serveLines (← IO.getStdin) (← IO.getStdout) server
      return 0
