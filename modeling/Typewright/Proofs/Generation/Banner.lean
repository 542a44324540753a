import Mathlib.Data.List.Infix
import Typewright.Generation
import Typewright.Proofs.Text.Lines

/-!
# The banner of a generated file

A generated file is its banner, a blank line and the declarations, and the lines of the banner are
comments exactly if the title, the version and the source go on after a line feed with comments only
(`Generation.comments_header_iff`).  The description may hold anything, since each of its lines is
marked by itself; the other texts are marked once, at their beginning.
-/

namespace Typewright.Generation

/-! ### Comments -/

/-- The line starts as a comment does. -/
def IsComment (line : List Char) : Prop :=
  ['/', '/'] <+: line

instance (line : List Char) : Decidable (IsComment line) :=
  inferInstanceAs (Decidable (_ <+: _))

/-- All lines of the text are comments. -/
def AllComments (text : String) : Prop :=
  ∀ line ∈ Text.splitOnChar '\n' text.toList, IsComment line

instance (text : String) : Decidable (AllComments text) :=
  inferInstanceAs (Decidable (∀ line ∈ _, IsComment line))

/-- The lines of a text after its first line feed. -/
def laterLines (text : String) : List (List Char) :=
  (Text.splitOnChar '\n' text.toList).tail

theorem comments_intercalate_iff {texts : List String} (h : texts ≠ []) :
    AllComments ("\n".intercalate texts) ↔ ∀ text ∈ texts, AllComments text := by
  unfold AllComments
  rw [Text.splitOnChar_intercalate rfl h, List.forall_mem_flatMap]

/-- A text after the mark of a comment. -/
theorem comments_append_iff {mark : String} (hmark : IsComment mark.toList)
    (hline : '\n' ∉ mark.toList) (text : String) :
    AllComments (mark ++ text) ↔ ∀ line ∈ laterLines text, IsComment line := by
  unfold AllComments laterLines
  rw [String.toList_append, Text.splitOnChar_append_of_notMem hline]
  cases hlines : Text.splitOnChar '\n' text.toList with
  | nil => exact absurd hlines (Text.splitOnChar_ne_nil _ _)
  | cons first later =>
    rw [List.modifyHead_cons, List.forall_mem_cons, List.tail_cons]
    exact and_iff_right (hmark.trans (List.prefix_append _ _))

/-- A line that is marked and trimmed is a comment. -/
theorem comments_trimEnd {line : String} (h : '\n' ∉ line.toList) :
    AllComments (Text.trimEnd ("// " ++ line)) := by
  have hmarked : '\n' ∉ ("// " ++ line).toList := by
    rw [String.toList_append, List.mem_append]
    exact fun hmem => hmem.elim (by decide) h
  have hline : '\n' ∉ (Text.trimEnd ("// " ++ line)).toList :=
    fun hmem => hmarked ((Text.trimEnd_prefix _).subset hmem)
  unfold AllComments
  rw [Text.splitOnChar_eq_singleton hline, List.forall_mem_singleton]
  have hstart : ['/'] ++ ['/'] <+: ("// " ++ line).toList := by
    rw [String.toList_append]
    exact List.prefix_append ['/', '/'] _
  exact Text.prefix_trimEnd hstart (by decide)

/-! ### The banner -/

/-- The text of the banner. -/
def header (metadata : Api.Metadata) (source : String) : String :=
  "\n".intercalate (banner metadata source)

/-- The texts that the banner marks once, however many lines they have. -/
def markedTexts (metadata : Api.Metadata) (source : String) : List String :=
  metadata.title.toList ++ [source] ++ metadata.version.toList

theorem comments_description (description : String) :
    ∀ text ∈ "//" :: (Text.lines description).map fun line => Text.trimEnd ("// " ++ line),
      AllComments text := by
  refine List.forall_mem_cons.2 ⟨by decide, List.forall_mem_map.2 fun line hline => ?_⟩
  exact comments_trimEnd (Text.notMem_of_mem_lines hline)

/-- Each text of the banner consists of comments, but for what follows a line feed in a marked text. -/
theorem comments_banner_iff (metadata : Api.Metadata) (source : String) :
    (∀ text ∈ banner metadata source, AllComments text) ↔
      ∀ text ∈ markedTexts metadata source, ∀ line ∈ laterLines text, IsComment line := by
  have hopening : ∀ text ∈ ["// AUTO-GENERATED CODE - DO NOT EDIT!", "//"], AllComments text := by decide
  have hclosing : AllComments "// Generated by `schema-dts`" := by decide
  -- A mark makes a comment of the first line that follows it, and of no other.
  have hmarked {mark : String} (hmark : IsComment mark.toList) (hline : '\n' ∉ mark.toList)
      (optional : Option String) : (∀ text ∈ (optional.map (mark ++ ·)).toList, AllComments text) ↔
        ∀ text ∈ optional.toList, ∀ line ∈ laterLines text, IsComment line := by
    cases optional with
    | none => simp
    | some text => simp [comments_append_iff hmark hline]
  unfold banner markedTexts
  simp only [List.forall_mem_append, List.forall_mem_singleton,
    hmarked (by decide : IsComment "// ".toList) (by decide),
    comments_append_iff (by decide : IsComment "// Source: ".toList) (by decide),
    hmarked (by decide : IsComment "// Version: ".toList) (by decide)]
  simp only [iff_true_intro hopening, iff_true_intro hclosing, true_and, and_true]
  refine and_iff_left ?_
  cases metadata.description with
  | none => exact List.forall_mem_nil _
  | some description => exact comments_description description

theorem comments_header_iff (metadata : Api.Metadata) (source : String) :
    AllComments (header metadata source) ↔
      ∀ text ∈ markedTexts metadata source, ∀ line ∈ laterLines text, IsComment line := by
  unfold header
  rw [comments_intercalate_iff (by simp [banner]), comments_banner_iff]

/-! ### Files -/

theorem file_eq (document : Json) (options : Options) (source : String) :
    file document options source =
      (declarations document options).map fun (code, stats) =>
        (header (Api.Metadata.ofDocument document) source ++ "\n\n" ++ code, stats) := by
  unfold file
  cases declarations document options <;> rfl

/-- A file is its banner, a blank line and the declarations.  The lines of the banner are comments exactly
    if the title, the version and the source go on after a line feed with comments only; the description
    may hold anything. -/
theorem file_comments_iff (document : Json) (options : Options) (source : String) :
    let metadata := Api.Metadata.ofDocument document
    (file document options source =
      (declarations document options).map fun (code, stats) =>
        (header metadata source ++ "\n\n" ++ code, stats)) ∧
    (AllComments (header metadata source) ↔
      ∀ text ∈ markedTexts metadata source, ∀ line ∈ laterLines text, IsComment line) :=
  ⟨file_eq document options source, comments_header_iff _ _⟩

/-- A schema whose title goes on in a second line. -/
def titledSchema : Json :=
  .object [("title", .string "Point\ndeclare const origin: Main;"), ("type", .string "object")]

/-- The second line of the title stands in the banner, and is no comment. -/
theorem file_uncomments_title :
    ∃ text code stats, file titledSchema {} "point.json" = .ok (text, stats) ∧
      declarations titledSchema {} = .ok (code, stats) ∧
      ∀ header, text = header ++ "\n\n" ++ code → ¬ AllComments header := by
  have hmade : (declarations titledSchema {}).isOk = true := by decide +kernel
  have hfile := file_eq titledSchema {} "point.json"
  cases hcode : declarations titledSchema {} with
  | error failure =>
    rw [hcode] at hmade
    exact absurd hmade Bool.false_ne_true
  | ok made =>
    rw [hcode] at hfile
    refine ⟨_, made.1, made.2, hfile, rfl, fun other hother hall => ?_⟩
    -- Before the declarations there is only one banner.
    have hheader : header (Api.Metadata.ofDocument titledSchema) "point.json" = other :=
      (String.append_left_inj _).1 ((String.append_left_inj _).1 hother)
    rw [← hheader, comments_header_iff] at hall
    have hline : IsComment "declare const origin: Main;".toList :=
      hall "Point\ndeclare const origin: Main;" (by decide) _ (by decide)
    exact absurd hline (by decide)

end Typewright.Generation
