import Typewright.Pointer
import Typewright.Proofs.Text.Lines

/-!
# Segments of references

Splitting undoes escaping, so a child adds its segment to those of its parent (`split_child`), and a
joined reference splits into the segments it was joined from (`split_join`).  Empty segments are
lost.  The child of a joined reference is joined from one segment more (`child_join`).
-/

namespace Typewright.Pointer

open Text

/-! ### Escapes -/

theorem replacePair_cons {first second replacement c : Char} (h : c ≠ first) (rest : List Char) :
    replacePair first second replacement (c :: rest) =
      c :: replacePair first second replacement rest := by
  cases rest with
  | nil => rfl
  | cons d rest => rw [replacePair, if_neg fun hpair => h hpair.1]

/-- The characters of a segment with the tildes still escaped. -/
def halfEscapeChars (cs : List Char) : List Char :=
  cs.flatMap fun c => if c = '~' then ['~', '0'] else [c]

theorem replacePair_escapeChars (cs : List Char) :
    replacePair '~' '1' '/' (escapeChars cs) = halfEscapeChars cs := by
  induction cs with
  | nil => rfl
  | cons c rest ih =>
    rw [escapeChars, halfEscapeChars, List.flatMap_cons, List.flatMap_cons, ← escapeChars,
      ← halfEscapeChars, ← ih]
    by_cases htilde : c = '~'
    · -- A tilde becomes `~0`, which is no escaped slash.
      rw [htilde, escapeChar, if_pos rfl, if_pos rfl]
      change '~' :: replacePair '~' '1' '/' ('0' :: escapeChars rest) = _
      rw [replacePair_cons (by decide)]
      rfl
    · rw [escapeChar, if_neg htilde, if_neg htilde]
      by_cases hslash : c = '/'
      · rw [hslash, if_pos rfl]
        rfl
      · rw [if_neg hslash]
        exact replacePair_cons htilde _

theorem replacePair_halfEscapeChars (cs : List Char) :
    replacePair '~' '0' '~' (halfEscapeChars cs) = cs := by
  induction cs with
  | nil => rfl
  | cons c rest ih =>
    rw [halfEscapeChars, List.flatMap_cons, ← halfEscapeChars]
    by_cases htilde : c = '~'
    · rw [if_pos htilde, htilde]
      change '~' :: replacePair '~' '0' '~' (halfEscapeChars rest) = _
      rw [ih]
    · rw [if_neg htilde, List.singleton_append, replacePair_cons htilde, ih]

/-- Escapes are undone, the slashes first and then the tildes. -/
theorem unescapeChars_escapeChars (cs : List Char) : unescapeChars (escapeChars cs) = cs := by
  rw [unescapeChars, replacePair_escapeChars, replacePair_halfEscapeChars]

theorem notMem_escapeChars (cs : List Char) : '/' ∉ escapeChars cs := by
  intro h
  obtain ⟨c, -, hc⟩ := List.mem_flatMap.1 h
  unfold escapeChar at hc
  split at hc
  · exact absurd hc (by decide)
  · split at hc
    · exact absurd hc (by decide)
    · next hslash => exact hslash (List.mem_singleton.1 hc).symm

theorem escapeChars_eq_nil_iff {cs : List Char} : escapeChars cs = [] ↔ cs = [] := by
  constructor
  · intro h
    rw [← unescapeChars_escapeChars cs, h]
    rfl
  · rintro rfl
    rfl

/-! ### Pieces -/

/-- The pieces between slashes that are not empty. -/
def pieces (cs : List Char) : List (List Char) :=
  (splitOnChar '/' cs).filter (!·.isEmpty)

theorem pieces_append (xs ys : List Char) : pieces (xs ++ '/' :: ys) = pieces xs ++ pieces ys := by
  rw [pieces, splitOnChar_append, List.filter_append, pieces, pieces]

theorem pieces_slash (cs : List Char) : pieces ('/' :: cs) = pieces cs :=
  pieces_append [] cs

theorem pieces_escapeChars (cs : List Char) :
    pieces (escapeChars cs) = if cs = [] then [] else [escapeChars cs] := by
  rw [pieces, splitOnChar_eq_singleton (notMem_escapeChars cs)]
  split
  · next h => rw [escapeChars_eq_nil_iff.2 h]; rfl
  · next h => simp [escapeChars_eq_nil_iff, h]

/-- Whether a slash follows the anchor or not, the pieces are the same. -/
theorem pieces_dropAnchor_hash (cs : List Char) : pieces (dropAnchor ('#' :: cs)) = pieces cs := by
  cases cs with
  | nil => rfl
  | cons c rest =>
    by_cases h : c = '/'
    · rw [h, pieces_slash]
      rfl
    · unfold dropAnchor
      split
      · next heq => simp_all
      · next heq => simp_all
      · next heq => simp_all

theorem dropAnchor_eq_self {cs : List Char} (h : cs.head? ≠ some '#') : dropAnchor cs = cs := by
  unfold dropAnchor
  split <;> simp_all

theorem pieces_dropAnchor_append (xs ys : List Char) :
    pieces (dropAnchor (xs ++ '/' :: ys)) = pieces (dropAnchor xs) ++ pieces ys := by
  cases xs with
  | nil => exact pieces_slash ys
  | cons c rest =>
    by_cases h : c = '#'
    · rw [h, List.cons_append, pieces_dropAnchor_hash, pieces_dropAnchor_hash, pieces_append]
    · have hhead (zs : List Char) : (c :: zs).head? ≠ some '#' := fun hc => h (Option.some.inj hc)
      rw [List.cons_append, dropAnchor_eq_self (hhead _), dropAnchor_eq_self (hhead _),
        ← List.cons_append, pieces_append]

/-- The slashes at the end of a reference give no pieces. -/
theorem pieces_dropTrailingSlashes (cs : List Char) :
    pieces (dropAnchor (dropTrailingSlashes cs)) = pieces (dropAnchor cs) := by
  -- The slashes are dropped from the reversed text, so the induction is over that.
  have hreverse (rs : List Char) :
      pieces (dropAnchor (rs.dropWhile (· == '/')).reverse) = pieces (dropAnchor rs.reverse) := by
    induction rs with
    | nil => rfl
    | cons c rest ih =>
      by_cases h : c = '/'
      · rw [h, List.dropWhile_cons_of_pos rfl, ih, List.reverse_cons, pieces_dropAnchor_append]
        exact (List.append_nil _).symm
      · rw [List.dropWhile_cons_of_neg (by simpa using h)]
  have := hreverse cs.reverse
  rwa [List.reverse_reverse] at this

/-! ### Segments -/

theorem split_eq (reference : String) :
    split reference =
      (pieces (dropAnchor reference.toList)).map fun piece => String.ofList (unescapeChars piece) := by
  rw [split, splitChars, List.map_map]
  rfl

/-- The segments that a written segment gives: itself, unless it is empty. -/
theorem segments_escapeChars (segment : String) :
    ((pieces (escapeChars segment.toList)).map fun piece => String.ofList (unescapeChars piece)) =
      [segment].filter (· ≠ "") := by
  rw [pieces_escapeChars]
  by_cases h : segment = ""
  · rw [h]
    rfl
  · have hne : segment.toList ≠ [] := fun hnil => h (String.toList_eq_nil_iff.1 hnil)
    rw [if_neg hne, List.map_singleton, unescapeChars_escapeChars, String.ofList_toList]
    simp [h]

/-- Whether a segment is empty or not, what is left of it tells it. -/
theorem eq_of_filter_eq {segment other : String}
    (h : [segment].filter (· ≠ "") = [other].filter (· ≠ "")) : segment = other := by
  by_cases hsegment : segment = "" <;> by_cases hother : other = "" <;> simp_all

/-- A child has the segments of its parent and its own, unless that is empty. -/
theorem split_child_eq (reference segment : String) :
    split (child reference segment) = split reference ++ [segment].filter (· ≠ "") := by
  rw [split_eq, split_eq, child, String.toList_ofList, pieces_dropAnchor_append,
    pieces_dropTrailingSlashes, List.map_append, segments_escapeChars]

theorem split_child (reference : String) {segment : String} (h : segment ≠ "") :
    split (child reference segment) = split reference ++ [segment] := by
  rw [split_child_eq, List.filter_cons_of_pos (by simpa using h), List.filter_nil]

/-- A joined reference has the segments it is joined from, but for the empty ones. -/
theorem split_join_eq (segments : List String) :
    split (join segments) = segments.filter (· ≠ "") := by
  rw [split_eq, join, String.toList_append]
  change (pieces (dropAnchor ('#' :: '/' :: ("/".intercalate (segments.map escape)).toList))).map _ = _
  rw [pieces_dropAnchor_hash, pieces_slash]
  induction segments with
  | nil => rfl
  | cons segment rest ih =>
    cases rest with
    | nil =>
      rw [List.map_singleton, String.intercalate_singleton, escape, String.toList_ofList,
        segments_escapeChars]
    | cons next rest =>
      rw [List.map_cons, List.map_cons, String.intercalate_cons_cons, ← List.map_cons]
      rw [String.toList_append, String.toList_append, escape, String.toList_ofList]
      change (pieces ((escapeChars segment.toList ++ ['/']) ++ _)).map _ = _
      rw [List.append_assoc, List.singleton_append, pieces_append, List.map_append, ih,
        segments_escapeChars, ← List.filter_append, List.singleton_append]

theorem split_join {segments : List String} (h : ∀ segment ∈ segments, segment ≠ "") :
    split (join segments) = segments := by
  rw [split_join_eq, List.filter_eq_self]
  exact fun segment hsegment => by simpa using h segment hsegment

/-! ### Children of joined references -/

theorem intercalate_concat_pair (separator : String) (texts : List String) (text last : String) :
    separator.intercalate (texts ++ [text, last]) =
      separator.intercalate (texts ++ [text]) ++ separator ++ last := by
  induction texts with
  | nil => simp [String.intercalate_cons_cons, String.intercalate_singleton]
  | cons first rest ih =>
    have hpair : rest ++ [text, last] ≠ [] := by simp
    have hsingle : rest ++ [text] ≠ [] := by simp
    obtain ⟨second, others, hothers⟩ := List.exists_cons_of_ne_nil hpair
    obtain ⟨second', others', hothers'⟩ := List.exists_cons_of_ne_nil hsingle
    rw [List.cons_append, List.cons_append, hothers, hothers', String.intercalate_cons_cons,
      String.intercalate_cons_cons, ← hothers, ← hothers', ih]
    simp only [String.append_assoc]

theorem join_concat_pair (segments : List String) (segment last : String) :
    join (segments ++ [segment, last]) = join (segments ++ [segment]) ++ "/" ++ escape last := by
  have hpair := intercalate_concat_pair "/" (segments.map escape) (escape segment) (escape last)
  simp only [join, List.map_append, List.map_cons, List.map_nil, hpair, String.append_assoc]

/-- A joined reference ends with its last segment as it is written. -/
theorem exists_toList_join_eq (segments : List String) (last : String) :
    ∃ cs, (join (segments ++ [last])).toList = cs ++ escapeChars last.toList := by
  rcases List.eq_nil_or_concat segments with rfl | ⟨before, segment, rfl⟩
  · exact ⟨['#', '/'], by simp [join, escape]⟩
  · refine ⟨(join (before ++ [segment]) ++ "/").toList, ?_⟩
    rw [List.concat_eq_append, List.append_assoc, List.singleton_append, join_concat_pair]
    simp [escape]

theorem dropTrailingSlashes_append {cs ds : List Char} (hne : ds ≠ []) (hds : '/' ∉ ds) :
    dropTrailingSlashes (cs ++ ds) = cs ++ ds := by
  obtain ⟨c, rest, hreverse⟩ := List.exists_cons_of_ne_nil (mt List.reverse_eq_nil_iff.1 hne)
  have hc : c ≠ '/' := by
    rintro rfl
    exact hds (List.mem_reverse.1 (hreverse ▸ List.mem_cons_self))
  rw [dropTrailingSlashes, List.reverse_append, hreverse, List.cons_append,
    List.dropWhile_cons_of_neg (by simpa using hc), ← List.cons_append, ← hreverse,
    ← List.reverse_append, List.reverse_reverse]

/-- The child of a joined reference is joined too, unless the last segment is lost. -/
theorem child_join (segments : List String) {last : String} (h : last ≠ "") (segment : String) :
    child (join (segments ++ [last])) segment = join (segments ++ [last, segment]) := by
  have hlast : escapeChars last.toList ≠ [] :=
    fun hnil => h (String.toList_eq_nil_iff.1 (escapeChars_eq_nil_iff.1 hnil))
  obtain ⟨cs, hcs⟩ := exists_toList_join_eq segments last
  -- No slash is dropped, as the last segment is written without slashes.
  have hkeeps : dropTrailingSlashes (join (segments ++ [last])).toList =
      (join (segments ++ [last])).toList := by
    rw [hcs]
    exact dropTrailingSlashes_append hlast (notMem_escapeChars _)
  rw [child, hkeeps, join_concat_pair]
  apply String.toList_inj.1
  simp [escape]

end Typewright.Pointer
