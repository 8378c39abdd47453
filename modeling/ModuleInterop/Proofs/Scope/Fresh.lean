import Mathlib.Data.List.Nodup
import Mathlib.Data.List.Perm.Subperm
import ModuleInterop.Scope.Fresh

/-!
# A chosen name is not taken

The search for a free number looks at no more numbers than there are names that may be taken.  That
is enough: different numbers give different names, so among one more number than there are names one
is free, and the search ends at it (`firstFree_not_taken`).
-/

set_option autoImplicit false

namespace ModuleInterop.Scope

/-! ## The search for a free number -/

section Search

variable {taken : Nat → Bool}

/-- The search does not go below where it begins. -/
theorem le_firstFree (limit n : Nat) : n ≤ firstFree taken limit n := by
  induction limit generalizing n with
  | zero => exact Nat.le_refl n
  | succ limit ih =>
    unfold firstFree
    split
    · exact Nat.le_of_succ_le (ih (n + 1))
    · exact Nat.le_refl n

/-- The search ends after as many steps as it may take. -/
theorem firstFree_le (limit n : Nat) : firstFree taken limit n ≤ n + limit := by
  induction limit generalizing n with
  | zero => exact Nat.le_refl n
  | succ limit ih =>
    unfold firstFree
    split
    · have := ih (n + 1)
      omega
    · omega

/-- All numbers that the search passes are taken. -/
theorem taken_of_lt_firstFree {limit n i : Nat} (from_start : n ≤ i)
    (passed : i < firstFree taken limit n) : taken i = true := by
  induction limit generalizing n with
  | zero =>
    unfold firstFree at passed
    omega
  | succ limit ih =>
    unfold firstFree at passed
    split at passed
    · rename_i here
      rcases Nat.eq_or_lt_of_le from_start with rfl | later
      · exact here
      · exact ih later passed
    · omega

/-- A number that the search stops at before it has to is free. -/
theorem firstFree_not_taken_of_lt {limit n : Nat} (early : firstFree taken limit n < n + limit) :
    taken (firstFree taken limit n) = false := by
  induction limit generalizing n with
  | zero =>
    have := @le_firstFree taken 0 n
    omega
  | succ limit ih =>
    unfold firstFree at early ⊢
    split
    · rename_i here
      rw [if_pos here] at early
      exact ih (by omega)
    · rename_i here
      simpa using here

/-- **The search ends at a free number** if it may look at as many numbers as there are names, and
different numbers have different names. -/
theorem firstFree_not_taken {name : Nat → String} {names : List String} {limit n : Nat}
    (injective : Function.Injective name) (known : ∀ i, taken i = true → name i ∈ names)
    (enough : names.length ≤ limit) : taken (firstFree taken limit n) = false := by
  rcases Nat.lt_or_eq_of_le (@firstFree_le taken limit n) with early | last
  · exact firstFree_not_taken_of_lt early
  · cases stopped : taken (firstFree taken limit n) with
    | false => rfl
    | true =>
      -- Then every number looked at is taken, which is more names than there are.
      have all : ∀ i ∈ List.range' n (limit + 1), taken i = true := by
        intro i mem
        rw [List.mem_range'_1] at mem
        rcases Nat.lt_or_ge i (n + limit) with passed | beyond
        · exact taken_of_lt_firstFree mem.1 (last ▸ passed)
        · have : i = n + limit := by omega
          rw [this, ← last]
          exact stopped
      have distinct : ((List.range' n (limit + 1)).map name).Nodup :=
        List.Nodup.map injective List.nodup_range'
      have inside : (List.range' n (limit + 1)).map name ⊆ names := by
        intro x mem
        obtain ⟨i, number, rfl⟩ := List.mem_map.mp mem
        exact known i (all i number)
      have short := (List.subperm_of_subset distinct inside).length_le
      rw [List.length_map, List.length_range'] at short
      omega

end Search

/-! ## Names from numbers -/

/-- A number can be read off the text that ends in it. -/
theorem append_repr_injective (text : String) :
    Function.Injective fun n => text ++ Nat.repr n := by
  intro m n same
  have : (text ++ Nat.repr m).toList = (text ++ Nat.repr n).toList := congrArg String.toList same
  rw [String.toList_append, String.toList_append, List.append_cancel_left_eq, Nat.toList_repr,
    Nat.toList_repr] at this
  rw [← Nat.ofDigitChars_ten_toDigits (n := m), this, Nat.ofDigitChars_ten_toDigits]

/-- Different numbers give different candidates. -/
theorem candidateName_injective (candidate : String) :
    Function.Injective (candidateName candidate) := by
  have longer (n : Nat) : candidate ≠ candidate ++ "_" ++ Nat.repr n := by
    intro same
    have := congrArg String.length same
    rw [String.length_append, String.length_append] at this
    have : "_".length = 1 := rfl
    omega
  intro m n same
  unfold candidateName at same
  split at same <;> split at same
  · omega
  · exact absurd same (longer n)
  · exact absurd same.symm (longer m)
  · exact append_repr_injective (candidate ++ "_") same

/-! ## Names that are taken -/

/-- Generated names do not change which scopes are around a scope. -/
theorem ScopeTree.chain_congr {before after : ScopeTree} (same : after.scopes = before.scopes)
    (scope : Nat) : after.chain scope = before.chain scope := by
  unfold chain
  rw [same]

/-- A scope is among those from it outwards. -/
theorem ScopeTree.mem_chain_self (tree : ScopeTree) (scope : Nat) : scope ∈ tree.chain scope := by
  unfold chain
  split <;> exact List.mem_cons_self

/-- A name that a scope declares is a name of the module or a generated one. -/
theorem ScopeTree.mem_allNames_of_declares {tree : ScopeTree} {scope : Nat} {name : String}
    (h : tree.declares scope name = true) : name ∈ tree.allNames := by
  unfold declares at h
  rw [Bool.or_eq_true] at h
  unfold allNames
  rw [List.mem_append]
  rcases h with declared | generated
  · split at declared
    · rename_i entry there
      obtain ⟨e, mem, same⟩ := List.any_eq_true.mp declared
      refine .inl (List.mem_flatMap.mpr ⟨entry, List.mem_of_getElem? there, ?_⟩)
      exact List.mem_map.mpr ⟨e, mem, by simpa using same⟩
    · contradiction
  · obtain ⟨e, mem, same⟩ := List.any_eq_true.mp generated
    rw [Bool.and_eq_true] at same
    exact .inr (List.mem_map.mpr ⟨e, mem, by simpa using same.2⟩)

/-- A name that is visible from a scope is a name of the module or a generated one. -/
theorem ScopeTree.mem_allNames_of_sees {tree : ScopeTree} {scope : Nat} {name : String}
    (h : tree.sees scope name = true) : name ∈ tree.allNames := by
  obtain ⟨i, -, declared⟩ := List.any_eq_true.mp h
  exact mem_allNames_of_declares declared

/-- **A fresh name is not taken.** -/
theorem freshName_not_taken (tree : ScopeTree) (scope : Nat) (globals : List String)
    (candidate : String) :
    isTaken tree scope globals (freshName tree scope globals candidate) = false := by
  have known : ∀ i, isTaken tree scope globals (candidateName candidate i) = true →
      candidateName candidate i ∈ tree.allNames ++ globals ++ unavailable := by
    intro i taken
    unfold isTaken at taken
    rw [Bool.or_eq_true, Bool.or_eq_true] at taken
    rw [List.mem_append, List.mem_append]
    rcases taken with (seen | free) | reserved
    · exact .inl (.inl (ScopeTree.mem_allNames_of_sees seen))
    · exact .inl (.inr (by simpa using free))
    · exact .inr (by simpa using reserved)
  have count : (tree.allNames ++ globals ++ unavailable).length =
      tree.allNames.length + globals.length + unavailable.length := by
    rw [List.length_append, List.length_append]
  exact firstFree_not_taken (candidateName_injective candidate) known (Nat.le_of_eq count)

end ModuleInterop.Scope
