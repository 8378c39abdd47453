import ModuleInterop.Naming
import ModuleInterop.Text.Identifier

/-!
# Names that a binding may have

Whatever text a name is made from, the name is an identifier of ASCII characters and no reserved word
(`identifier_legalize`, `legalize_not_reserved`): every other character is replaced, and `_` is put
before a digit and before the words that are forbidden.  All reserved words and `eval` are among these,
and `arguments` is not.  So in a module a binding may have the name unless it is made from exactly that
word (`names_fit_bindings`): a hyphen never gives a letter in lower case, so no other text becomes `arguments`
(`legalize_eq_arguments_iff`).

The names that are made are the legal ones, and a legal name stays as it is: the hyphens, the foreign
characters and what `_` is put before are not in it.  So a text is taken for a legal name if and only if
it is one, and exactly these texts are made from some text (`isLegal_exact`).
-/

set_option autoImplicit false

namespace ModuleInterop

open ModuleInterop.Text

/-! ## Upper case -/

section Uppercase

/-- Upper case has no letter in lower case, as far as the table goes. -/
theorem uppercaseExpansions_noLower :
    ∀ e ∈ uppercaseExpansions, e.2 ≠ [] ∧ ∀ n ∈ e.2, (Char.ofNat n).isLower = false := by decide

theorem uppercaseRuns_noLower :
    ∀ r ∈ uppercaseRuns, 0x80 ≤ r.2.2.2 ∨ r.1 = r.2.1 ∧ (Char.ofNat r.2.2.2).isLower = false := by
  decide +kernel

theorem isLower_of_le {n : Nat} (beyond : 0x80 ≤ n) : (Char.ofNat n).isLower = false := by
  by_cases valid : n.isValidChar
  · have number : (Char.ofNat n).toNat = n := by
      rw [Char.ofNat, dif_pos valid]
      rfl
    cases lower : (Char.ofNat n).isLower with
    | false => rfl
    | true =>
      have le : (Char.ofNat n).toNat ≤ 'z'.toNat :=
        of_decide_eq_true ((Bool.and_eq_true _ _).mp lower).2
      exact absurd (number ▸ le) (by have : 'z'.toNat = 122 := rfl; omega)
  · rw [Char.ofNat, dif_neg valid]
    rfl

theorem toUpper_noLower {c : Char} (ascii : c.toNat < 0x80) : c.toUpper.isLower = false := by
  have all : ∀ n < 0x80, (Char.ofNat n).toUpper.isLower = false := by decide
  have here := all c.toNat ascii
  rwa [Char.ofNat_toNat] at here

/-- **The upper case of a character** is some text without a letter in lower case. -/
theorem uppercase_noLower (c : Char) :
    uppercase c ≠ [] ∧ ∀ d ∈ uppercase c, d.isLower = false := by
  unfold uppercase
  split
  · rename_i ascii
    simp [toUpper_noLower ascii]
  · rename_i beyond
    split
    · rename_i e found
      obtain ⟨some, lower⟩ := uppercaseExpansions_noLower e (List.mem_of_find?_eq_some found)
      refine ⟨by simpa using some, ?_⟩
      intro d mem
      obtain ⟨n, among, rfl⟩ := List.mem_map.mp mem
      exact lower n among
    · split
      · rename_i r found
        have within := List.find?_some found
        simp only [Bool.and_eq_true, decide_eq_true_eq] at within
        refine ⟨List.cons_ne_nil _ _, ?_⟩
        intro d mem
        rw [List.mem_singleton.mp mem]
        rcases uppercaseRuns_noLower r (List.mem_of_find?_eq_some found) with far | ⟨one, lower⟩
        · exact isLower_of_le (by omega)
        · have here : c.toNat - r.1 = 0 := by omega
          rw [here]
          exact lower
      · refine ⟨List.cons_ne_nil _ _, ?_⟩
        intro d mem
        rw [List.mem_singleton.mp mem, ← Char.ofNat_toNat c]
        exact isLower_of_le (by omega)

end Uppercase

/-! ## Letters in lower case come from themselves -/

/-- **What camel case leaves in lower case, it leaves as it is.** -/
theorem camelCase_eq_self {text : List Char} (lower : ∀ c ∈ camelCase text, c.isLower = true) :
    camelCase text = text := by
  fun_induction camelCase text with
  | case1 => rfl
  | case2 c text _ ih =>
    -- The character after the hyphen is in upper case.
    obtain ⟨some, noLower⟩ := uppercase_noLower c
    obtain ⟨d, mem⟩ := List.exists_mem_of_ne_nil _ some
    have isLower := lower d (List.mem_append_left _ mem)
    rw [noLower d mem] at isLower
    contradiction
  | case3 c text _ ih => exact absurd (lower '-' List.mem_cons_self) (by decide)
  | case4 c text _ ih =>
    rw [ih fun d mem => lower d (List.mem_cons_of_mem _ mem)]

/-- A replaced text that has no `_` is the text itself. -/
theorem replaceForeign_eq_self {text : List Char} (none : '_' ∉ replaceForeign text) :
    replaceForeign text = text := by
  unfold replaceForeign at none ⊢
  refine (List.map_congr_left fun c mem => ?_).trans (List.map_id text)
  split
  · rfl
  · rename_i foreign
    exact absurd (List.mem_map.mpr ⟨c, mem, by rw [if_neg foreign]⟩) none

/-- **Only `arguments` becomes `arguments`.** -/
theorem legalize_eq_arguments_iff {text : List Char} :
    legalize text = "arguments".toList ↔ text = "arguments".toList := by
  constructor
  · intro same
    have inner : replaceForeign (camelCase text) = "arguments".toList := by
      unfold legalize shield at same
      split at same
      · exact absurd (List.cons.inj same).1 (by decide)
      · exact same
    have whole : camelCase text = "arguments".toList := by
      rw [← inner]
      exact (replaceForeign_eq_self (by rw [inner]; decide)).symm
    rw [← whole]
    refine (camelCase_eq_self ?_).symm
    rw [whole]
    exact List.all_eq_true.mp (by decide)
  · rintro rfl
    decide

/-! ## Names of bindings -/

/-- A text is an identifier of ASCII characters. -/
structure AsciiIdentifier (name : List Char) : Prop where
  begins : ∃ c ∈ name.head?, isAsciiIdentifierStart c = true
  parts : ∀ c ∈ name, isAsciiIdentifierPart c = true

instance (name : List Char) : Decidable (AsciiIdentifier name) :=
  decidable_of_iff (name.head?.any isAsciiIdentifierStart = true ∧ name.all isAsciiIdentifierPart = true) <| by
    rw [Option.any_eq_true, List.all_eq_true]
    exact ⟨fun h => ⟨h.1, h.2⟩, fun h => ⟨h.begins, h.parts⟩⟩

/-- The reserved words of modules, those included that are reserved in some contexts only. -/
def moduleReservedWords : List String := [
  "await", "break", "case", "catch", "class", "const", "continue", "debugger", "default", "delete",
  "do", "else", "enum", "export", "extends", "false", "finally", "for", "function", "if", "implements",
  "import", "in", "instanceof", "interface", "let", "new", "null", "package", "private", "protected",
  "public", "return", "static", "super", "switch", "this", "throw", "true", "try", "typeof", "var",
  "void", "while", "with", "yield"]

/-- A binding of a module may have a name: it is an identifier, and neither a reserved word nor one of
the two words that no binding may have in strict code. -/
structure MayName (name : List Char) : Prop extends AsciiIdentifier name where
  notReserved : String.ofList name ∉ moduleReservedWords
  notRestricted : String.ofList name ≠ "eval" ∧ String.ofList name ≠ "arguments"

theorem isAsciiIdentifierPart_of_isNameChar {c : Char} (h : isNameChar c = true) :
    isAsciiIdentifierPart c = true := by
  simp only [isNameChar, Char.isAlphanum, Bool.or_eq_true] at h
  simp only [isAsciiIdentifierPart, isAsciiIdentifierStart, Bool.or_eq_true]
  rcases h with ((letter | digit) | mark) | dollar
  · exact .inl (.inl (.inl letter))
  · exact .inr digit
  · exact .inl (.inl (.inr mark))
  · exact .inl (.inr dollar)

theorem isNameChar_of_mem_replaceForeign {text : List Char} {c : Char}
    (mem : c ∈ replaceForeign text) : isNameChar c = true := by
  obtain ⟨d, -, rfl⟩ := List.mem_map.mp mem
  split
  · assumption
  · rfl

/-- A shielded text is an identifier. -/
theorem identifier_shield {text : List Char} (fit : ∀ c ∈ text, isNameChar c = true) :
    AsciiIdentifier (shield text) := by
  have parts : ∀ c ∈ text, isAsciiIdentifierPart c = true := fun c mem =>
    isAsciiIdentifierPart_of_isNameChar (fit c mem)
  unfold shield
  split
  · refine ⟨⟨'_', rfl, rfl⟩, ?_⟩
    intro c mem
    rcases List.mem_cons.mp mem with rfl | mem
    · rfl
    · exact parts c mem
  · rename_i fine
    refine ⟨?_, parts⟩
    cases text with
    | nil => exact absurd rfl fine
    | cons c text =>
      have part := parts c List.mem_cons_self
      have noDigit : c.isDigit = false := by
        simp only [List.head?_cons, Option.map_some, Option.getD_some, Bool.or_eq_true,
          not_or, Bool.not_eq_true] at fine
        exact fine.1
      refine ⟨c, rfl, ?_⟩
      rwa [isAsciiIdentifierPart, noDigit, Bool.or_false] at part

/-- A shielded text is no word that is forbidden. -/
theorem shield_not_forbidden {text : List Char} {word : String}
    (forbidden : isForbidden word.toList = true) (plain : word.toList.head? ≠ some '_') :
    String.ofList (shield text) ≠ word := by
  rintro rfl
  rw [String.toList_ofList] at forbidden plain
  unfold shield at forbidden plain
  split at forbidden
  · rename_i shielded
    rw [if_pos shielded] at plain
    exact plain rfl
  · rename_i fine
    rw [forbidden, Bool.or_true] at fine
    exact fine rfl

theorem identifier_legalize (text : List Char) : AsciiIdentifier (legalize text) :=
  identifier_shield fun _ => isNameChar_of_mem_replaceForeign

theorem legalize_not_reserved (text : List Char) :
    String.ofList (legalize text) ∉ moduleReservedWords := by
  have all : ∀ word ∈ moduleReservedWords,
      isForbidden word.toList = true ∧ word.toList.head? ≠ some '_' := by decide
  intro mem
  obtain ⟨forbidden, plain⟩ := all _ mem
  exact shield_not_forbidden forbidden plain rfl

/-- **A binding may have the name that a text gives** unless the text is `arguments`. -/
theorem mayName_legalize_iff {text : List Char} :
    MayName (legalize text) ↔ text ≠ "arguments".toList := by
  constructor
  · rintro h rfl
    exact h.notRestricted.2 (congrArg String.ofList (legalize_eq_arguments_iff.mpr rfl))
  · intro other
    refine ⟨identifier_legalize text, legalize_not_reserved text, ?_, ?_⟩
    · exact shield_not_forbidden (by decide) (by decide)
    · intro same
      refine other (legalize_eq_arguments_iff.mp ?_)
      rw [← same, String.toList_ofList]

/-- The text that the name of the module with an id is made from: the name of its file, or that of the
directory if the file is an index. -/
def namingText (id : List Char) : List Char :=
  let stem := (fileStem? id).getD []
  if stem = "index".toList then (directoryName? id).getD [] else stem

theorem nameOf_eq (id : List Char) : nameOf id = legalize (namingText id) := by
  unfold nameOf namingText
  dsimp only
  split <;> rfl

/-- **The names of modules fit bindings.**  Whatever text a name is made from, it is an identifier and no
reserved word, and a binding may have it unless it is made from the word `arguments`. -/
theorem names_fit_bindings (text id : List Char) :
    AsciiIdentifier (legalize text) ∧ String.ofList (legalize text) ∉ moduleReservedWords ∧
      (MayName (legalize text) ↔ text ≠ "arguments".toList) ∧
      (MayName (nameOf id) ↔ namingText id ≠ "arguments".toList) := by
  refine ⟨identifier_legalize text, legalize_not_reserved text, mayName_legalize_iff, ?_⟩
  rw [nameOf_eq]
  exact mayName_legalize_iff

/-- **The word that is missed**: no binding of a module may have this name. -/
theorem arguments_kept :
    legalize "arguments".toList = "arguments".toList ∧ ¬ MayName (legalize "arguments".toList) ∧
      ¬ MayName (nameOf "lib/arguments.js".toList) := by
  have bare : ¬ MayName (legalize "arguments".toList) := fun h => mayName_legalize_iff.mp h rfl
  refine ⟨by decide, bare, ?_⟩
  have same : nameOf "lib/arguments.js".toList = legalize "arguments".toList := by decide
  rw [same]
  exact bare

/-! ## Legal names -/

/-- A generated binding may have a name: it is an identifier of ASCII characters, and neither a reserved
word nor the name of a global object or value. -/
structure LegalName (name : List Char) : Prop extends AsciiIdentifier name where
  notForbidden : String.ofList name ∉ reservedWords ++ builtinNames

theorem isForbidden_iff {name : List Char} :
    isForbidden name = true ↔ name = [] ∨ String.ofList name ∈ reservedWords ++ builtinNames := by
  have among : ((reservedWords ++ builtinNames).any fun word => word.toList == name) = true ↔
      String.ofList name ∈ reservedWords ++ builtinNames := by
    rw [List.any_eq_true]
    constructor
    · rintro ⟨word, mem, same⟩
      rwa [← eq_of_beq same, String.ofList_toList]
    · intro mem
      exact ⟨_, mem, by rw [String.toList_ofList, beq_self_eq_true]⟩
  rw [isForbidden, Bool.or_eq_true, List.isEmpty_iff, among]

theorem isNameChar_of_isAsciiIdentifierPart {c : Char} (h : isAsciiIdentifierPart c = true) :
    isNameChar c = true := by
  simp only [isAsciiIdentifierPart, isAsciiIdentifierStart, Bool.or_eq_true] at h
  simp only [isNameChar, Char.isAlphanum, Bool.or_eq_true]
  rcases h with ((letter | mark) | dollar) | digit
  · exact .inl (.inl (.inl letter))
  · exact .inl (.inr mark)
  · exact .inr dollar
  · exact .inl (.inl (.inr digit))

theorem isDigit_of_isAsciiIdentifierStart {c : Char} (h : isAsciiIdentifierStart c = true) :
    c.isDigit = false := by
  have all : ∀ n ≤ '9'.toNat,
      (Char.ofNat n).isDigit = true → isAsciiIdentifierStart (Char.ofNat n) = false := by decide
  rw [← Bool.not_eq_true]
  intro digit
  have le : c.toNat ≤ '9'.toNat := of_decide_eq_true ((Bool.and_eq_true _ _).mp digit).2
  have other := all c.toNat le
  rw [Char.ofNat_toNat, h] at other
  exact Bool.noConfusion (other digit)

theorem camelCase_of_noHyphen {text : List Char} (none : '-' ∉ text) : camelCase text = text := by
  fun_induction camelCase text with
  | case1 => rfl
  | case2 c text _ ih => exact absurd List.mem_cons_self none
  | case3 c text _ ih => exact absurd List.mem_cons_self none
  | case4 c text _ ih => rw [ih fun mem => none (List.mem_cons_of_mem _ mem)]

theorem replaceForeign_of_fit {text : List Char} (fit : ∀ c ∈ text, isNameChar c = true) :
    replaceForeign text = text :=
  (List.map_congr_left fun c mem => if_pos (fit c mem)).trans (List.map_id text)

/-- A legal name needs no `_` before it. -/
theorem LegalName.shield_eq {name : List Char} (h : LegalName name) : shield name = name := by
  obtain ⟨c, isHead, begins⟩ := h.begins
  have noDigit : (name.head?.map Char.isDigit).getD false = false := by
    rw [Option.mem_def.mp isHead]
    exact isDigit_of_isAsciiIdentifierStart begins
  have allowed : isForbidden name = false := by
    rw [← Bool.not_eq_true, isForbidden_iff]
    rintro (rfl | forbidden)
    · contradiction
    · exact h.notForbidden forbidden
  rw [shield, noDigit, allowed]
  rfl

/-- **A legal name stays as it is.** -/
theorem LegalName.legalize_eq {name : List Char} (h : LegalName name) : legalize name = name := by
  have fit : ∀ c ∈ name, isNameChar c = true := fun c mem =>
    isNameChar_of_isAsciiIdentifierPart (h.parts c mem)
  have noHyphen : '-' ∉ name := fun mem => absurd (fit '-' mem) (by decide)
  rw [legalize, camelCase_of_noHyphen noHyphen, replaceForeign_of_fit fit, h.shield_eq]

/-- **What is made from a text is a legal name.** -/
theorem legalName_legalize (text : List Char) : LegalName (legalize text) := by
  have all : ∀ word ∈ reservedWords ++ builtinNames, word.toList.head? ≠ some '_' :=
    List.forall_mem_append.mpr ⟨by decide, by decide⟩
  refine ⟨identifier_legalize text, fun mem => ?_⟩
  refine shield_not_forbidden (isForbidden_iff.mpr (.inr ?_)) (all _ mem) rfl
  rwa [String.ofList_toList]

theorem isLegal_iff {text : List Char} : isLegal text = true ↔ legalize text = text := by
  rw [isLegal, beq_iff_eq]

/-- **A text is taken for a legal name if it is one**, which a name made from a text always is: to make a
name of it once more changes nothing. -/
theorem isLegal_exact (text : List Char) :
    legalize (legalize text) = legalize text ∧ (isLegal text = true ↔ LegalName text) ∧
      (isLegal text = true ↔ ∃ origin, legalize origin = text) := by
  refine ⟨(legalName_legalize text).legalize_eq, ?_, ?_⟩
  · rw [isLegal_iff]
    exact ⟨fun same => same ▸ legalName_legalize text, LegalName.legalize_eq⟩
  · rw [isLegal_iff]
    refine ⟨fun same => ⟨text, same⟩, ?_⟩
    rintro ⟨origin, rfl⟩
    exact (legalName_legalize origin).legalize_eq

end ModuleInterop
