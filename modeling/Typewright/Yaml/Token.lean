/-!
# Tokens of a YAML text

The tokens that say how a text is built.  The starts and ends of block collections, which are
written by indentation alone, are tokens too.
-/

namespace Typewright.Yaml

/-- The text of a scalar, and whether it was written without quotes and without a block mark. -/
structure ScalarText where
  text : List Char
  plain : Bool

/-- A tag as written: a handle, which stands for the start of the tag, and the rest in octets. -/
structure WrittenTag where
  handle : String
  suffix : List UInt8

/-- A token of a YAML text. -/
inductive Token where
  /-- The version of YAML that a document is written in. -/
  | version (major minor : Nat)
  /-- What a tag handle stands for. -/
  | handle (name : String) (meaning : List UInt8)
  | documentStart
  | documentEnd
  | blockSequenceStart
  | blockMappingStart
  | blockEnd
  | flowSequenceStart
  | flowSequenceEnd
  | flowMappingStart
  | flowMappingEnd
  | blockEntry
  | flowEntry
  | key
  | value
  | anchor (name : String)
  | reference (name : String)
  | tag (written : WrittenTag)
  | scalar (text : ScalarText)

end Typewright.Yaml
