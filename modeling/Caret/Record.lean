/-
  Records: property names with values.

  A record keeps its entries in strictly ascending order of names (by code point, which is also the
  order of the UTF-8 bytes), so each name has one value and equal records are equal as data.
  Conditions ask a record for single properties only; `Lookup` is that view.
-/
import Caret.Value

namespace Caret

/-- Read access to properties: `none` where a property is absent. -/
abbrev Lookup := String → Option Value

structure Record where
  entries : List (String × Value)
  ascending : entries.Pairwise fun a b => a.1 < b.1

namespace Record

/-! ## Building -/

def empty : Record := ⟨[], List.Pairwise.nil⟩

/-- Put an entry into its place; an entry of the same name gives way. -/
def place (name : String) (value : Value) : List (String × Value) → List (String × Value)
  | [] => [(name, value)]
  | entry :: rest =>
    if name < entry.1 then (name, value) :: entry :: rest
    else if name = entry.1 then (name, value) :: rest
    else entry :: place name value rest

/-- Placing brings in no other entry. -/
theorem mem_place {name : String} {value : Value} {es : List (String × Value)}
    {e : String × Value} (h : e ∈ place name value es) : e = (name, value) ∨ e ∈ es := by
  induction es with
  | nil => exact Or.inl (List.mem_singleton.1 h)
  | cons d ds ih =>
    rw [place] at h
    split at h
    · exact List.mem_cons.1 h
    · split at h
      · rcases List.mem_cons.1 h with h | h
        · exact Or.inl h
        · exact Or.inr (List.mem_cons_of_mem _ h)
      · rcases List.mem_cons.1 h with h | h
        · exact Or.inr (h ▸ List.mem_cons_self ..)
        · rcases ih h with h | h
          · exact Or.inl h
          · exact Or.inr (List.mem_cons_of_mem _ h)

/-- Placing an entry keeps the order. -/
theorem ascending_place (name : String) (value : Value) {es : List (String × Value)}
    (h : es.Pairwise fun a b => a.1 < b.1) :
    (place name value es).Pairwise fun a b => a.1 < b.1 := by
  induction es with
  | nil => exact List.pairwise_singleton _ _
  | cons d ds ih =>
    obtain ⟨hd, hds⟩ := List.pairwise_cons.1 h
    rw [place]
    split
    · rename_i hlt
      refine List.pairwise_cons.2 ⟨fun e he => ?_, h⟩
      rcases List.mem_cons.1 he with rfl | he
      · exact hlt
      · exact String.lt_trans hlt (hd e he)
    · split
      · rename_i heq
        exact List.pairwise_cons.2 ⟨fun e he => heq ▸ hd e he, hds⟩
      · rename_i hlt hne
        refine List.pairwise_cons.2 ⟨fun e he => ?_, ih hds⟩
        rcases mem_place he with rfl | he
        · exact Std.lt_of_le_of_ne (String.not_lt.1 hlt) (Ne.symm hne)
        · exact hd e he

/-- Set a property, replacing any previous value. -/
def insert (r : Record) (name : String) (value : Value) : Record :=
  ⟨place name value r.entries, ascending_place name value r.ascending⟩

/-- Insert entries in order, so that the last of one name stays. -/
def ofList (entries : List (String × Value)) : Record :=
  entries.foldl (fun r e => r.insert e.1 e.2) empty

/-! ## Reading -/

/-- The value of a property, if the record has it. -/
def get? (r : Record) (name : String) : Option Value :=
  (r.entries.find? fun e => e.1 == name).map Prod.snd

/-- The number of properties. -/
def size (r : Record) : Nat := r.entries.length

def isEmpty (r : Record) : Bool := r.entries.isEmpty

end Record

end Caret
