import Typewright.Json.Token

/-!
# Reading a JSON text

The tokens of a text drive a machine that keeps the containers that are still open.  Every token
moves the machine one step or is refused, so reading is a fold over the tokens.  A text whose
containers nest too deeply is refused, and a field that is written twice keeps its first place
and takes its last value.
-/

namespace Typewright.Json

/-- A container that is still open, without the value being read into it. -/
inductive Frame where
  /-- An array with its items so far, the last one first. -/
  | array (items : List Json)
  /-- An object with its fields so far and the name of the field being read. -/
  | object (fields : List (String × Json)) (name : String)

/-- What the machine waits for, with the open containers, the innermost first. -/
inductive ReadState where
  /-- A value. -/
  | value (frames : List Frame)
  /-- The first item of an array, or its end. -/
  | firstItem (frames : List Frame)
  /-- The first field name of an object, or its end. -/
  | firstName (frames : List Frame)
  /-- The next field name of an object. -/
  | name (fields : List (String × Json)) (frames : List Frame)
  /-- The colon after a field name. -/
  | colon (fields : List (String × Json)) (name : String) (frames : List Frame)
  /-- A comma or the end of an array. -/
  | afterItem (items : List Json) (frames : List Frame)
  /-- A comma or the end of an object. -/
  | afterField (fields : List (String × Json)) (frames : List Frame)
  /-- Nothing more. -/
  | done (value : Json)

namespace ReadState

/-- How many containers may be open at a time. -/
def depthLimit : Nat :=
  127

/-- A value is complete: it goes into the innermost container. -/
def complete (value : Json) : List Frame → ReadState
  | [] => done value
  | .array items :: frames => afterItem (value :: items) frames
  | .object fields key :: frames => afterField (setField key value fields) frames

/-- A container may be opened inside the open ones. -/
def mayOpen (frames : List Frame) : Bool :=
  frames.length < depthLimit

/-- The first token of a value. -/
def start (frames : List Frame) : Token → Option ReadState
  | .openArray => if mayOpen frames then some (firstItem frames) else none
  | .openObject => if mayOpen frames then some (firstName frames) else none
  | .string s => some (complete (.string s) frames)
  | .scalar v => some (complete v frames)
  | _ => none

/-- One token moves the machine one step. -/
def step : ReadState → Token → Option ReadState
  | value frames, token => start frames token
  | firstItem frames, .closeArray => some (complete (.array []) frames)
  | firstItem frames, token => start (.array [] :: frames) token
  | firstName frames, .closeObject => some (complete (.object []) frames)
  | firstName frames, .string s => some (colon [] s frames)
  | firstName _, _ => none
  | name fields frames, .string s => some (colon fields s frames)
  | name _ _, _ => none
  | colon fields s frames, .colon => some (value (.object fields s :: frames))
  | colon _ _ _, _ => none
  | afterItem items frames, .comma => some (value (.array items :: frames))
  | afterItem items frames, .closeArray => some (complete (.array items.reverse) frames)
  | afterItem _ _, _ => none
  | afterField fields frames, .comma => some (name fields frames)
  | afterField fields frames, .closeObject => some (complete (.object fields) frames)
  | afterField _ _, _ => none
  | done _, _ => none

/-- The value, once the machine is done. -/
def result? : ReadState → Option Json
  | done v => some v
  | _ => none

end ReadState

/-- The value of a list of tokens. -/
def ofTokens? (tokens : List Token) : Option Json := do
  let last ← tokens.foldlM ReadState.step (.value [])
  last.result?

/-- The value of a JSON text. -/
def read? (s : String) : Option Json := do
  let tokens ← Token.scan s.toList
  ofTokens? tokens

end Typewright.Json
