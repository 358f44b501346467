import HopQuery.Json.Written

/-!
# Responses

The body of a response is an envelope: an object whose member `data` holds the answer, or an array
whose first item does. A list of errors may stand beside the answer and is passed over, as is
every other member of an object, whatever it holds. A body without an answer is a failure.

* `Fetch`: what has become of a query;
* `Envelope`, `Envelope.ofWritten?`: the envelope of a body;
* `Fetch.ofBody`: the outcome of a body.
-/

namespace HopQuery

/-- What has become of a query that was sent. -/
inductive Fetch
  /-- No answer has come. -/
  | pending
  /-- The answer holds no data. -/
  | failed
  /-- The data of the answer. -/
  | ready (data : Json)

/-- The two parts of an envelope that are looked at; `none` for one that has not been met. -/
structure Envelope where
  /-- The member `data`, whose value may be null. -/
  data : Option Json
  /-- The member `errors`. -/
  errors : Option (List Json)

namespace Envelope

/-- The envelope without parts. -/
def empty : Envelope :=
  ⟨none, none⟩

/-- The arrays and objects that may stand inside each other within an envelope. -/
def depthLimit : Nat := Written.depthLimit - 1

/-- The envelope with the data of the tree, unless it has data already. -/
def addData? (envelope : Envelope) (tree : Written) : Option Envelope := do
  let data ← tree.value? depthLimit
  if envelope.data.isSome then none else some { envelope with data := some data }

/-- The envelope with the list of errors of the tree, unless it has one already. -/
def addErrors? (envelope : Envelope) (tree : Written) : Option Envelope := do
  match ← tree.value? depthLimit with
  | .array errors =>
    if envelope.errors.isSome then none else some { envelope with errors := some errors }
  | _ => none

/-- The envelope with one more member of an object. The value of a member of another name is not
looked at, so it need not be one that can be held. -/
def addMember? (envelope : Envelope) (member : List StringUnit × Written) : Option Envelope := do
  match ← Written.text? member.1 with
  | "data" => envelope.addData? member.2
  | "errors" => envelope.addErrors? member.2
  | _ => some envelope

/-- The envelope that a tree holds. -/
def ofWritten? : Written → Option Envelope
  | .object members => members.foldlM addMember? empty
  | .array [] => some empty
  | .array [data] => empty.addData? data
  | .array [data, errors] => (empty.addData? data).bind (addErrors? · errors)
  | _ => none

/-- The outcome of an envelope: a failure without data. -/
def fetch (envelope : Envelope) : Fetch :=
  match envelope.data with
  | none => .failed
  | some .null => .failed
  | some data => .ready data

end Envelope

namespace Fetch

/-- The outcome of a body: a failure if it is no envelope or has no data. -/
def ofBody (body : String) : Fetch :=
  match (Written.read? body).bind Envelope.ofWritten? with
  | none => .failed
  | some envelope => envelope.fetch

end Fetch

end HopQuery
