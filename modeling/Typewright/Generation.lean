import Typewright.Api.Expansion
import Typewright.Namespace.Printer

/-!
# Generation

From a document and options to the text of its declarations.
-/

namespace Typewright.Generation

/-- The walk through a document. -/
def walkOf (document : Json) (options : Options) : Api.Walk :=
  let kind := DocumentKind.ofDocument document
  let space := Naming.identifier (options.baseNameFor kind)
  let document :=
    match kind with
    | .api => Api.normalize document
    | .schema => document
  { document
    context :=
      { options
        baseName := space
        schemaNames := Api.declaredSchemaNames document kind }
    space }

/-- The fragments before any reference is expanded. -/
def initialFragments (walk : Api.Walk) : DocumentKind → Run FragmentSet
  | .api => walk.documentFragments
  | .schema => walk.rootFragments

/-- The fragments of a document, and the statistics of making them. -/
def fragments (document : Json) (options : Options) : Except Failure (FragmentSet × Statistics) :=
  let walk := walkOf document options
  let run : Run (FragmentSet × Statistics) := do
    let initial ← initialFragments walk (DocumentKind.ofDocument document)
    let (set, stats) ← walk.expandFixedPoint initial {}
    pure (set, stats.recordSet set)
  (run.run []).1

/-- The namespaces of a document. -/
def namespaces (document : Json) (options : Options) : Except Failure (Namespace × Statistics) := do
  let (set, stats) ← fragments document options
  pure (Namespace.build set.fragments, stats)

/-- The declarations of a document. -/
def declarations (document : Json) (options : Options) : Except Failure (String × Statistics) := do
  let (tree, stats) ← namespaces document options
  pure (tree.text options.exportNamespaces, stats)

/-! ### The banner -/

/-- The lines that open a generated file. -/
def banner (metadata : Api.Metadata) (source : String) : List String :=
  ["// AUTO-GENERATED CODE - DO NOT EDIT!", "//"]
    ++ (metadata.title.map ("// " ++ ·)).toList
    ++ ["// Source: " ++ source]
    ++ (metadata.version.map ("// Version: " ++ ·)).toList
    ++ ["// Generated by `schema-dts`"]
    ++ (match metadata.description with
      | some description =>
        "//" :: (Text.lines description).map fun line => Text.trimEnd ("// " ++ line)
      | none => [])

/-- The declarations of a document after a banner that names their source. -/
def file (document : Json) (options : Options) (source : String) :
    Except Failure (String × Statistics) := do
  let (code, stats) ← declarations document options
  let lines := banner (Api.Metadata.ofDocument document) source
  pure ("\n".intercalate lines ++ "\n\n" ++ code, stats)

end Typewright.Generation
