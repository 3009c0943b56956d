import Converse.Link.Quota
import Converse.Reply.ErrorKind

/-
  How a link to the server fails: by the status of the response, by the connection, by what the response
  contains, or because the request could not be made.
-/

namespace Converse

inductive Failure
  | status (status : Nat) (message : String) (quota : Option Quota)
  | connection (reason : String)
  | contentType (found : String)
  | request (reason : String)
deriving DecidableEq, Repr

namespace Failure

def kind : Failure → ErrorKind
  | .status s _ _ => ErrorKind.ofStatus s
  | _ => .unexpected

def message : Failure → String
  | .status s m _ => m ++ " (HTTP " ++ toString s ++ ")"
  | .connection r => "connection failed: " ++ r
  | .contentType t => "unexpected content type: " ++ t
  | .request r => "request failed: " ++ r

/-- What is left of the quota, as an addition to a message. -/
def quotaNote (q : Quota) : String :=
  (match q.remaining, q.limit with
    | some r, some l => ", " ++ toString r ++ "/" ++ toString l ++ " requests remaining"
    | _, _ => "")
  ++ (match q.reset with
    | some t => ", window resets at " ++ toString t
    | none => "")

/-- The message, with the quota where it explains the failure: on status 429 and once it is used up. -/
def description (f : Failure) : String :=
  match f with
  | .status s _ (some q) =>
    if s == 429 || q.isExhausted then f.message ++ quotaNote q else f.message
  | _ => f.message

end Failure

end Converse
