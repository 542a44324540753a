import Typewright.Fragment.Set
import Typewright.Proofs.Fragment.Register
import Typewright.Proofs.TypeExpr.Normal

/-!
# Fragments in normal form

A fragment is normal if the type that it gives is, or leads to a path of identifiers where it stands for
another declaration (`Fragment.Normal`).  Sets of normal fragments are closed under all that sets are
made with.
-/

namespace Typewright

/-- The type of the declaration is normal; a redirect leads to a path of identifiers. -/
def DeclarationBody.Normal : DeclarationBody → Prop
  | .type declared => declared.Normal
  | .redirect other => Naming.IsPath other.target
  | _ => True

/-- The type of the member is normal; a redirect leads to a path of identifiers. -/
def MemberBody.Normal : MemberBody → Prop
  | .type declared => declared.Normal
  | .redirect other => Naming.IsPath other.target
  | .gathered => True

/-- The type that the fragment gives is normal. -/
def Fragment.Normal : Fragment → Prop
  | .statement _ _ type => type.Normal
  | .declaration _ _ body => body.Normal
  | .member _ _ _ body => body.Normal
  | .assumed _ => True

namespace FragmentSet

/-- All fragments of the set are normal. -/
def Normal (set : FragmentSet) : Prop :=
  ∀ fragment ∈ set.fragments, fragment.Normal

variable {set other : FragmentSet}

theorem normal_empty {warnings : List Warning} {operations : List String} :
    Normal { warnings, operations } :=
  List.forall_mem_nil _

theorem Normal.push (h : set.Normal) {fragment : Fragment} (hfragment : fragment.Normal) :
    (set.push fragment).Normal := by
  intro each heach
  rcases mem_push heach with heach | rfl
  · exact h each heach
  · exact hfragment

theorem Normal.extend (h : set.Normal) (hother : other.Normal) : (set.extend other).Normal :=
  fun each heach => (mem_extend heach).elim (h each) (hother each)

end FragmentSet

end Typewright
