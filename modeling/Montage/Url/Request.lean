import Montage.Text.Foreign
import Montage.Url.Basic

/-! # Requests for URLs

A client asks for what a text names.  The text may be a URL, or only a path and a query, which
then begin at a URL of the client's own (`Url.asked`).  What the client sends to say what it
asks for has to be ASCII.

Some texts name nothing that could be asked for, and some replies cannot be taken: a
`NetworkFault` says what is wrong.
-/
namespace Montage

open Montage.Text

/-- Why a request cannot be made, or its reply not be taken. -/
inductive NetworkFault where
  | url (fault : Url.Fault)
  | reference (fault : UrlParts.Fault)
  | host (fault : Host.Fault)
  | schemeless (url : String)
  /-- A text that has to be sent is not ASCII. -/
  | foreign (run : ForeignRun)
  deriving DecidableEq, Repr

def NetworkFault.message : NetworkFault → String
  | url f => f.message
  | reference f => f.message
  | host f => f.message
  | schemeless text => "unknown url type: " ++ quoted text
  | foreign r => r.message

/-- Refuses a text that is not ASCII. -/
def checkAscii (s : String) : Except NetworkFault Unit :=
  match foreignRun? s.toList with
  | some run => .error (.foreign run)
  | none => .ok ()

namespace Url

/-- The URL that a client asks for. -/
def asked (base : Url) (text : String) : Except NetworkFault Url := do
  let u ← ((read text).bind (under base)).mapError .url
  checkAscii u.place
  .ok u

/-- The path without escapes; nothing counts as a slash. -/
def shownPath (u : Url) : String :=
  Percent.unescaped (if u.path.isEmpty then ['/'] else u.path.toList)

end Url
end Montage
