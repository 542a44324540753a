import Mathlib.Data.Set.Operations
import Typewright.Proofs.Naming.Identifier

/-!
# The identifiers

An identifier is a capital letter or an underscore and a digit, with letters and digits after it
(`isIdentifier`).  `identifier` maps every text to one and keeps those that are one already
(`identifier_projects`).

`identifierChars` reads a text once, from the left.  It is the same as three rewrites one after the
other (`identifierChars_eq_rewrites`): the characters that are no letter, digit or separator are
dropped, then each letter at the start or behind a run of separators is raised, and the separators
that are left are dropped.
-/

namespace Typewright.Naming

/-- The letters and digits. -/
def isAlphanumeric (c : Char) : Bool :=
  isLetter c || isDigit c

/-- The capital letters. -/
def isCapital (c : Char) : Bool :=
  'A' ≤ c && c ≤ 'Z'

/-- A capital letter, or an underscore and a digit; then letters and digits. -/
def isIdentifier : List Char → Bool
  | '_' :: c :: rest => isDigit c && rest.all isAlphanumeric
  | c :: rest => isCapital c && rest.all isAlphanumeric
  | [] => false

/-! ### Characters -/

theorem isCapital_iff {c : Char} : isCapital c = true ↔ 65 ≤ c.toNat ∧ c.toNat ≤ 90 := by
  simp [isCapital, Char.le_def, UInt32.le_iff_toNat_le]

/-- The capital letters are the letters that stay when raised. -/
theorem isCapital_iff_isLetter {c : Char} :
    isCapital c = true ↔ isLetter c = true ∧ c.toUpper = c := by
  rw [isCapital_iff, isLetter_iff, ← Char.toNat_inj, toNat_toUpper]
  split <;> omega

theorem isAlphanumeric_toUpper {c : Char} (h : isLetter c = true) :
    isAlphanumeric c.toUpper = true := by
  rw [isAlphanumeric, isLetter_toUpper h, Bool.true_or]

/-! ### The projection -/

theorem isWord_cons_iff {c : Char} {rest : List Char} :
    IsWord (c :: rest) ↔ (isCapital c = true ∨ isDigit c = true) ∧ rest.all isAlphanumeric = true := by
  simp only [IsWord, List.forall_mem_cons, List.head?_cons, Option.mem_def, Option.some.injEq,
    forall_eq', List.all_eq_true, isAlphanumeric, Bool.or_eq_true]
  constructor
  · rintro ⟨⟨hletter | hdigit, hrest⟩, hupper⟩
    · exact ⟨.inl (isCapital_iff_isLetter.2 ⟨hletter, hupper⟩), hrest⟩
    · exact ⟨.inr hdigit, hrest⟩
  · rintro ⟨hcapital | hdigit, hrest⟩
    · obtain ⟨hletter, hupper⟩ := isCapital_iff_isLetter.1 hcapital
      exact ⟨⟨.inl hletter, hrest⟩, hupper⟩
    · exact ⟨⟨.inr hdigit, hrest⟩, toUpper_eq_of_isDigit hdigit⟩

theorem isIdentifier_of_isCapital {c : Char} {rest : List Char} (hc : isCapital c = true)
    (hrest : rest.all isAlphanumeric = true) : isIdentifier (c :: rest) = true := by
  have hne : c ≠ '_' := by
    rintro rfl
    exact absurd hc (by decide)
  unfold isIdentifier
  split
  · next heq => exact absurd (List.cons.inj heq).1 hne
  · next heq =>
    obtain ⟨rfl, rfl⟩ := List.cons.inj heq
    rw [hc, hrest, Bool.true_and]
  · next heq => simp at heq

/-- The identifiers are the completed words. -/
theorem isIdentifier_iff {cs : List Char} :
    isIdentifier cs = true ↔ ∃ word, IsWord word ∧ completeIdentifier word = cs := by
  constructor
  · intro h
    unfold isIdentifier at h
    split at h
    · next c rest =>
      obtain ⟨hdigit, hrest⟩ := Bool.and_eq_true_iff.1 h
      -- The underscore was put there for the digit after it.
      refine ⟨c :: rest, isWord_cons_iff.2 ⟨.inr hdigit, hrest⟩, ?_⟩
      rw [completeIdentifier, if_pos hdigit]
    · next c rest _ =>
      obtain ⟨hcapital, hrest⟩ := Bool.and_eq_true_iff.1 h
      refine ⟨c :: rest, isWord_cons_iff.2 ⟨.inl hcapital, hrest⟩, ?_⟩
      rw [completeIdentifier, if_neg]
      intro hdigit
      rw [isDigit_iff] at hdigit
      rw [isCapital_iff] at hcapital
      omega
    · simp at h
  · rintro ⟨word, hword, rfl⟩
    cases word with
    | nil => decide
    | cons c rest =>
      obtain ⟨hfirst, hrest⟩ := isWord_cons_iff.1 hword
      rw [completeIdentifier]
      split
      · next hdigit => rw [isIdentifier, hdigit, hrest, Bool.true_and]
      · next hdigit => exact isIdentifier_of_isCapital (hfirst.resolve_right hdigit) hrest

theorem isIdentifier_identifierChars (cs : List Char) : isIdentifier (identifierChars cs) = true :=
  isIdentifier_iff.2 ⟨capitalizeWords true cs, isWord_capitalizeWords cs, rfl⟩

theorem identifierChars_of_isIdentifier {cs : List Char} (h : isIdentifier cs = true) :
    identifierChars cs = cs := by
  obtain ⟨word, hword, rfl⟩ := isIdentifier_iff.1 h
  have hfixed := identifierChars_completeIdentifier hword (List.forall_mem_nil _)
  rwa [List.append_nil] at hfixed

/-- Every text has an identifier, and the texts that are their own identifier are the identifiers:
    the identifiers are the fixed points of `identifier` and all its values. -/
theorem identifier_projects :
    (∀ text, isIdentifier (identifier text).toList = true) ∧
    (∀ text, identifier text = text ↔ isIdentifier text.toList = true) ∧
    (∀ text, identifier (identifier text) = identifier text) ∧
    Set.range identifier = {text | isIdentifier text.toList = true} := by
  have hvalue (text : String) : isIdentifier (identifier text).toList = true := by
    rw [identifier, String.toList_ofList]
    exact isIdentifier_identifierChars text.toList
  have hfixed (text : String) (h : isIdentifier text.toList = true) : identifier text = text := by
    rw [identifier, identifierChars_of_isIdentifier h, String.ofList_toList]
  refine ⟨hvalue, fun text => ⟨fun h => h ▸ hvalue text, hfixed text⟩,
    fun text => hfixed _ (hvalue text), ?_⟩
  refine Set.ext fun text => ⟨?_, fun h => ⟨text, hfixed text h⟩⟩
  rintro ⟨source, rfl⟩
  exact hvalue source

/-! ### The rewrites -/

/-- The characters that the first rewrite keeps. -/
def isKept (c : Char) : Bool :=
  isAlphanumeric c || isSeparator c

/-- The letter behind a run of characters that are no letter and no digit, and what follows it. -/
def matchRun? (cs : List Char) : Option (Char × List Char) :=
  match cs.dropWhile (!isAlphanumeric ·) with
  | c :: rest => if isLetter c then some (c, rest) else none
  | [] => none

/-- The letter of a match at the start of the given characters, and what follows it.  A match is a
    letter, where the text starts, or a run that is not empty and a letter behind it. -/
def matchWord? (atStart : Bool) : List Char → Option (Char × List Char)
  | [] => none
  | c :: rest =>
    if isAlphanumeric c then if atStart && isLetter c then some (c, rest) else none
    else matchRun? rest

/-- The letter is where the run ends. -/
theorem dropWhile_of_matchRun?_eq_some {cs rest : List Char} {c : Char}
    (h : matchRun? cs = some (c, rest)) :
    isLetter c = true ∧ cs.dropWhile (!isAlphanumeric ·) = c :: rest := by
  unfold matchRun? at h
  split at h
  · next d after heq =>
    obtain ⟨hletter, rfl, rfl⟩ : isLetter d = true ∧ d = c ∧ after = rest := by simpa using h
    exact ⟨hletter, heq⟩
  · simp at h

theorem suffix_of_matchRun? {cs rest : List Char} {c : Char} (h : matchRun? cs = some (c, rest)) :
    c :: rest <:+ cs :=
  (dropWhile_of_matchRun?_eq_some h).2 ▸ List.dropWhile_suffix _

theorem length_lt_of_matchWord? {atStart : Bool} {cs rest : List Char} {c : Char}
    (h : matchWord? atStart cs = some (c, rest)) : rest.length < cs.length := by
  unfold matchWord? at h
  split at h
  · simp at h
  · next d tail =>
    split at h
    · obtain ⟨-, -, rfl⟩ : (atStart = true ∧ isLetter d = true) ∧ d = c ∧ tail = rest := by
        simpa using h
      exact Nat.lt_succ_self _
    · have hlength := (suffix_of_matchRun? h).length_le
      rw [List.length_cons] at hlength ⊢
      omega

/-- Every match is replaced by its letter, raised.  The next match is the first one from where the last
    one ends. -/
def raiseWords (atStart : Bool) (cs : List Char) : List Char :=
  match _h : matchWord? atStart cs with
  | some (c, rest) => c.toUpper :: raiseWords false rest
  | none =>
    match cs with
    | [] => []
    | c :: rest => c :: raiseWords false rest
termination_by cs.length
decreasing_by
  · exact length_lt_of_matchWord? _h
  · exact Nat.lt_succ_self _

theorem raiseWords_nil (atStart : Bool) : raiseWords atStart [] = [] := by
  rw [raiseWords]
  rfl

theorem raiseWords_of_matchWord?_eq_some {atStart : Bool} {cs rest : List Char} {c : Char}
    (h : matchWord? atStart cs = some (c, rest)) :
    raiseWords atStart cs = c.toUpper :: raiseWords false rest := by
  rw [raiseWords]
  split
  · next heq =>
    obtain ⟨rfl, rfl⟩ := Prod.mk.inj (Option.some.inj (heq.symm.trans h))
    rfl
  · next heq => simp [h] at heq

theorem raiseWords_of_matchWord?_eq_none {atStart : Bool} {rest : List Char} {c : Char}
    (h : matchWord? atStart (c :: rest) = none) :
    raiseWords atStart (c :: rest) = c :: raiseWords false rest := by
  rw [raiseWords]
  split
  · next heq => simp [h] at heq
  · rfl

theorem capitalizeWords_of_not_isAlphanumeric {starting : Bool} {c : Char} {rest : List Char}
    (h : isAlphanumeric c = false) :
    capitalizeWords starting (c :: rest) = capitalizeWords (starting || isSeparator c) rest := by
  obtain ⟨hletter, hdigit⟩ := Bool.or_eq_false_iff.1 h
  rw [capitalizeWords, hletter, hdigit]
  rfl

/-- Only letters, digits and separators count. -/
theorem capitalizeWords_filter (starting : Bool) (cs : List Char) :
    capitalizeWords starting (cs.filter isKept) = capitalizeWords starting cs := by
  induction cs generalizing starting with
  | nil => rfl
  | cons c rest ih =>
    rw [List.filter_cons]
    split
    · simp only [capitalizeWords, ih]
    · next hkept =>
      obtain ⟨hword, hseparator⟩ := Bool.or_eq_false_iff.1 (Bool.not_eq_true _ ▸ hkept)
      rw [ih, capitalizeWords_of_not_isAlphanumeric hword, hseparator, Bool.or_false]

/-- A run before a word changes nothing at the start of a word. -/
theorem capitalizeWords_dropWhile (cs : List Char) :
    capitalizeWords true (cs.dropWhile (!isAlphanumeric ·)) = capitalizeWords true cs := by
  induction cs with
  | nil => rfl
  | cons c rest ih =>
    rw [List.dropWhile_cons]
    split
    · next hword =>
      rw [ih, capitalizeWords_of_not_isAlphanumeric (by simpa using hword), Bool.true_or]
    · rfl

/-- Where no letter comes first, it makes no difference whether a word starts. -/
theorem capitalizeWords_of_matchRun?_eq_none {cs : List Char} (h : matchRun? cs = none)
    (starting : Bool) : capitalizeWords starting cs = capitalizeWords true cs := by
  induction cs generalizing starting with
  | nil => rfl
  | cons c rest ih =>
    cases hword : isAlphanumeric c with
    | false =>
      rw [capitalizeWords_of_not_isAlphanumeric hword, capitalizeWords_of_not_isAlphanumeric hword,
        Bool.true_or]
      refine ih ?_ _
      rwa [matchRun?, List.dropWhile_cons, if_pos (by rw [hword]; rfl)] at h
    | true =>
      have hletter : isLetter c = false := by simpa [matchRun?, hword] using h
      have hdigit : isDigit c = true := by simpa [isAlphanumeric, hletter] using hword
      simp [capitalizeWords, hletter, hdigit]

/-- A letter or a digit is kept; a letter is raised where the text starts. -/
theorem filter_raiseWords_of_isAlphanumeric {atStart : Bool} {c : Char} {rest : List Char}
    (hword : isAlphanumeric c = true)
    (hrest : (raiseWords false rest).filter isAlphanumeric = capitalizeWords false rest) :
    (raiseWords atStart (c :: rest)).filter isAlphanumeric = capitalizeWords atStart (c :: rest) := by
  -- Only a letter at the start of a word is raised; any other letter or digit stays as it is.
  cases hfirst : atStart && isLetter c with
  | true =>
    obtain ⟨rfl, hletter⟩ := Bool.and_eq_true_iff.1 hfirst
    rw [raiseWords_of_matchWord?_eq_some (by rw [matchWord?, if_pos hword, if_pos hfirst]),
      List.filter_cons_of_pos (isAlphanumeric_toUpper hletter), hrest, capitalizeWords,
      if_pos hletter, if_pos rfl]
  | false =>
    rw [raiseWords_of_matchWord?_eq_none
      (by rw [matchWord?, if_pos hword, if_neg (by rw [hfirst]; exact Bool.false_ne_true)]),
      List.filter_cons_of_pos hword, hrest]
    cases hletter : isLetter c with
    | true =>
      have hstart : atStart = false := by simpa [hletter] using hfirst
      simp [capitalizeWords, hletter, hstart]
    | false =>
      have hdigit : isDigit c = true := by simpa [isAlphanumeric, hletter] using hword
      simp [capitalizeWords, hletter, hdigit]

/-- A separator raises the letter behind the run that it starts, if a letter is what ends the run. -/
theorem filter_raiseWords_of_isSeparator {atStart : Bool} {c : Char} {rest : List Char}
    (hword : isAlphanumeric c = false) (hseparator : isSeparator c = true)
    (hshorter : ∀ after, after <:+ rest →
      (raiseWords false after).filter isAlphanumeric = capitalizeWords false after) :
    (raiseWords atStart (c :: rest)).filter isAlphanumeric = capitalizeWords atStart (c :: rest) := by
  have hmatch : matchWord? atStart (c :: rest) = matchRun? rest := by
    rw [matchWord?, if_neg (by rw [hword]; exact Bool.false_ne_true)]
  rw [capitalizeWords_of_not_isAlphanumeric hword, hseparator, Bool.or_true]
  cases hrun : matchRun? rest with
  | none =>
    -- The run is left for the last rewrite, and no letter follows it.
    rw [raiseWords_of_matchWord?_eq_none (hmatch.trans hrun),
      List.filter_cons_of_neg (by rw [hword]; exact Bool.false_ne_true),
      hshorter rest List.suffix_rfl]
    exact capitalizeWords_of_matchRun?_eq_none hrun false
  | some found =>
    obtain ⟨d, after⟩ := found
    obtain ⟨hletter, hdrop⟩ := dropWhile_of_matchRun?_eq_some hrun
    have hsuffix : after <:+ rest := (List.suffix_cons d after).trans (suffix_of_matchRun? hrun)
    rw [raiseWords_of_matchWord?_eq_some (hmatch.trans hrun),
      List.filter_cons_of_pos (isAlphanumeric_toUpper hletter), hshorter after hsuffix,
      ← capitalizeWords_dropWhile rest, hdrop, capitalizeWords, if_pos hletter, if_pos rfl]

/-- Raising the words and dropping the separators is capitalizing the words. -/
theorem filter_raiseWords (atStart : Bool) {cs : List Char} (hkept : ∀ c ∈ cs, isKept c = true) :
    (raiseWords atStart cs).filter isAlphanumeric = capitalizeWords atStart cs := by
  induction hlength : cs.length using Nat.strongRecOn generalizing atStart cs with
  | _ n ih =>
    subst hlength
    cases cs with
    | nil =>
      rw [raiseWords_nil]
      rfl
    | cons c rest =>
      -- A match may take several characters, so the rest that it leaves is any end of the text.
      have hshorter (after : List Char) (h : after <:+ rest) :
          (raiseWords false after).filter isAlphanumeric = capitalizeWords false after :=
        ih after.length (Nat.lt_succ_of_le h.length_le) false
          (fun d hd => hkept d (List.mem_cons_of_mem _ (h.subset hd))) rfl
      cases hword : isAlphanumeric c with
      | true => exact filter_raiseWords_of_isAlphanumeric hword (hshorter rest List.suffix_rfl)
      | false =>
        have hseparator : isSeparator c = true := by
          simpa [isKept, hword] using hkept c List.mem_cons_self
        exact filter_raiseWords_of_isSeparator hword hseparator hshorter

/-- The characters of an identifier by three rewrites. -/
theorem identifierChars_eq_rewrites (cs : List Char) :
    identifierChars cs =
      completeIdentifier ((raiseWords true (cs.filter isKept)).filter isAlphanumeric) := by
  rw [filter_raiseWords true fun c hc => (List.mem_filter.1 hc).2, capitalizeWords_filter]
  rfl

end Typewright.Naming
