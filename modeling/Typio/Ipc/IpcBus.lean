import Typio.State.StatusService

/-!
# The request handler of the bus

A request is taken apart by searching for its members, handed to the status service, and answered
with the service's text; a text in which the quoted word `jsonrpc` does not occur is put into an
envelope first.
-/

namespace Typio

namespace Bus

open JsonText TipJson Status

section Handler

variable {σ : Type} (inst : Instance σ)

/-- The parameters are passed on when there are any bytes of them. -/
def requestParams (request : CString) : Option CString :=
  match extractParams request with
  | .found (byte :: slice) => some (byte :: slice)
  | .found [] | .absent | .malformed => none

/-- Bare results are wrapped into an envelope. -/
def wrap (id : Int) (response : CString) : CString :=
  if (strstr response (quoted (ascii "jsonrpc"))).isSome then response
  else buildResponse id (some response)

def handleRequest (request : CString) (state : σ) : σ × CString :=
  let id := (extractId request).getD 0
  match extractString request (ascii "method") with
  | none => (state, buildError id (-32600) (ascii "Invalid Request: missing method"))
  | some method =>
      let (after, response) := handle inst method (requestParams request) id state
      (after, wrap id response)

/-- The notification that the properties have changed. -/
def emitPropertiesChanged (view : View) : CString :=
  buildNotify (ascii "PropertiesChanged") (some (getAllJson view))

/-- The handler as the server calls it, with a terminated payload; `changes` are the states in
which a change is announced while the request is handled. -/
def requestHandler (changes : σ → CString → List σ) : Uds.Handler σ := fun state payload =>
  let request := payload.takeWhile (· ≠ 0)
  let (after, response) := handleRequest inst request state
  { userData := after
    notifications := (changes state request).map fun changed =>
      emitPropertiesChanged (inst.view changed)
    response := some response }

end Handler

end Bus

end Typio
