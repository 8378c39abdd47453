import ModuleInterop.Proofs.SourceMap.Decoding

/-!
# Mappings are read back

The text of an integer ends where it says it ends, whatever follows (`readVlq_vlq`), so the texts of
integers written one after the other come from these integers only (`flatMap_vlq_injective`).  With the
separators this makes mappings readable: the segments of every line, the empty ones included, are read
back from what is written (`mappings_read_back`).  Only no line at all reads as an empty one.
-/

set_option autoImplicit false

namespace ModuleInterop.SourceMap

/-- An integer and what follows it are told apart. -/
theorem vlq_append_inj {value other : Int} {rest rest' : List Char}
    (same : vlq value ++ rest = vlq other ++ rest') : value = other ∧ rest = rest' := by
  have read := readVlq_vlq value rest
  rw [same, readVlq_vlq] at read
  obtain ⟨rfl, rfl⟩ := Prod.mk.inj (Option.some.inj read)
  exact ⟨rfl, rfl⟩

/-- **Integers that are written one after the other** are known from the text. -/
theorem flatMap_vlq_injective {values others : List Int}
    (same : values.flatMap vlq = others.flatMap vlq) : values = others := by
  induction values generalizing others with
  | nil =>
    cases others with
    | nil => rfl
    | cons other others =>
      rw [List.flatMap_nil, List.flatMap_cons] at same
      exact absurd (List.append_eq_nil_iff.mp same.symm).1 (vlq_ne_nil other)
  | cons value values ih =>
    cases others with
    | nil =>
      rw [List.flatMap_nil, List.flatMap_cons] at same
      exact absurd (List.append_eq_nil_iff.mp same).1 (vlq_ne_nil value)
    | cons other others =>
      rw [List.flatMap_cons, List.flatMap_cons] at same
      obtain ⟨rfl, rest⟩ := vlq_append_inj same
      rw [ih rest]

/-- **Mappings are read back**: all lines with all segments, and each integer of them from its text,
negative ones as well. -/
theorem mappings_read_back {lines : List (List Segment)} (nonempty : lines ≠ []) :
    decode (encode lines) = some lines ∧
      (∀ (value : Int) (rest : List Char), readVlq (vlq value ++ rest) = some (value, rest)) ∧
      ∀ values others : List Int, values.flatMap vlq = others.flatMap vlq → values = others :=
  ⟨decode_encode nonempty, readVlq_vlq, fun _ _ => flatMap_vlq_injective⟩

/-- The largest differences there are between two numbers of 32 bits, both ways, on lines with an empty
one in between. -/
theorem extreme_mappings_read_back :
    ([[⟨0, 4294967295, 0⟩, ⟨5, 0, 4294967295⟩], [], [⟨7, 1, 3⟩]] : List (List Segment)) ≠ [] ∧
      String.ofList (encode [[⟨0, 4294967295, 0⟩, ⟨5, 0, 4294967295⟩], [], [⟨7, 1, 3⟩]]) =
        "AA+/////HA,KA//////H+/////H;;OAC5/////H" ∧
      decode (encode [[⟨0, 4294967295, 0⟩, ⟨5, 0, 4294967295⟩], [], [⟨7, 1, 3⟩]]) =
        some [[⟨0, 4294967295, 0⟩, ⟨5, 0, 4294967295⟩], [], [⟨7, 1, 3⟩]] ∧
      readVlq (vlq (-4294967295) ++ [',']) = some (-4294967295, [',']) := by
  have nonempty : ([[⟨0, 4294967295, 0⟩, ⟨5, 0, 4294967295⟩], [], [⟨7, 1, 3⟩]] :
      List (List Segment)) ≠ [] := List.cons_ne_nil _ _
  obtain ⟨decoded, read, -⟩ := mappings_read_back nonempty
  exact ⟨nonempty, by decide +kernel, decoded, read _ _⟩

end ModuleInterop.SourceMap
