import ModuleInterop.Proofs.Conversion.Distinct
import ModuleInterop.Proofs.Syntax.Accepted.Module
import ModuleInterop.Proofs.Syntax.Node

/-!
# Modules that need nothing but what they import

A text is self-contained when it is a module whose string literals are the modules that it names behind
`from`, whose references are to names that its imports bind, and which exports a default and nothing else
(`SelfContained`).  What its tokens are decides this: from the tokens of a text with imports and a default
export follows what it is read as, and from that what it refers to (`exists_selfContained_import`,
`exists_selfContained_call`, `exists_selfContained_from`).
-/

set_option autoImplicit false

namespace ModuleInterop.Syntax

open ModuleInterop.Text

/-! ## What a text takes from elsewhere -/

/-- The modules that a row of tokens names behind the word `from`. -/
def sourcesOf : List TokenKind → List String
  | .word _ (some .from) :: .literal (.string source) _ :: row => source :: sourcesOf row
  | _ :: row => sourcesOf row
  | [] => []

/-- What the string literals in a row of tokens denote. -/
def stringsOf (row : List TokenKind) : List String :=
  row.filterMap fun
    | .literal (.string value) _ => some value
    | _ => none

/-- The names that the imports of a module bind. -/
def Program.importedNames (program : Program) : List String :=
  program.body.flatMap fun
    | .importing _ list => list.map Name.text
    | _ => []

/-- A text is a module that takes what it uses from these modules: these are the texts it denotes by
string literals, each reference is to a name that an import binds, and it exports a default and nothing
else. -/
structure SelfContained (text : String) (sources : List String) (program : Program) : Prop where
  named : ∃ row, Spells 0 text.toList (row ++ [.endOfInput]) ∧ sourcesOf row = sources ∧
    stringsOf row = sources
  read : parseModule text.toList = .ok program
  bound : ∀ node span name, program.Reaches (fun _ => none) (fun _ => true) node →
    node.reference? = some (span, name) → name ∈ program.importedNames
  default : program.exportedNames = ["default"]
  nothingElse : ∀ s ∈ program.body, ∀ span, s ≠ .exportAll span none

variable {pos : Nat} {rest name : List Char} {source text callee : String}
  {kinds tokens row clause : List TokenKind} {keyword : Option Keyword} {bound sources : List String}
  {program : Program}

/-! ## The texts as rows of tokens -/

/-- The tokens of an import with a clause. -/
def importRow (clause : List TokenKind) (source : String) : List TokenKind :=
  .word "import" (some .import) :: (clause ++
    [.word "from" (some .from), .literal (.string source) "string"])

/-- The tokens of a default export of a value. -/
def exportRow (value : List TokenKind) : List TokenKind :=
  .word "export" (some .export) :: .word "default" (some .default) :: value

/-- The token of a name. -/
def nameToken (name : List Char) : TokenKind :=
  .word (String.ofList name) (Keyword.ofText? (String.ofList name))

theorem endsName_space {text : List Char} : EndsName (' ' :: text) := endsName_cons (by decide)

theorem endsName_semicolon {text : List Char} : EndsName (';' :: text) := endsName_cons (by decide)

/-- The module behind the clause of an import. -/
theorem spells_from (h : ∀ pos, Spells pos rest kinds) :
    Spells pos (' ' :: ("from".toList ++ ' ' :: ((quote source).toList ++ rest)))
      (.word "from" (some .from) :: .literal (.string source) "string" :: kinds) :=
  .space (.spelled (by decide) (by decide) endsName_space (.space (.quote (h _))))

/-- A default export behind a semicolon. -/
theorem spells_export (h : ∀ pos, Spells pos rest kinds) :
    Spells pos (';' :: ' ' :: ("export".toList ++ ' ' :: ("default".toList ++ ' ' :: rest)))
      (.punct .semicolon :: exportRow kinds) :=
  .mark (by decide) (by decide) rfl (.space (.spelled (by decide) (by decide) endsName_space
    (.space (.spelled (by decide) (by decide) endsName_space (.space (h _))))))

/-- A name at the end, behind which a semicolon stands. -/
theorem spells_lastName (identifier : AsciiIdentifier name) :
    Spells pos (name ++ [';']) [nameToken name, .punct .semicolon, .endOfInput] :=
  .word identifier endsName_semicolon (.mark (by decide) (by decide) rfl .endOfInput)

/-- An import of a whole module. -/
theorem spells_namespaceImport (identifier : AsciiIdentifier name) (h : ∀ pos, Spells pos rest kinds) :
    Spells pos ("import".toList ++ ' ' :: '*' :: ' ' :: ("as".toList ++ ' ' :: (name ++
        ' ' :: ("from".toList ++ ' ' :: ((quote source).toList ++ rest)))))
      (importRow [.punct .star, .word "as" (some .as), nameToken name] source ++ kinds) := by
  refine .spelled (by decide) (by decide) endsName_space (.space ?_)
  refine .mark (by decide) (by decide) rfl (.space ?_)
  refine .spelled (by decide) (by decide) endsName_space (.space ?_)
  exact .word identifier endsName_space (spells_from h)

/-- An import of the default of a module. -/
theorem spells_defaultImport (identifier : AsciiIdentifier name) (h : ∀ pos, Spells pos rest kinds) :
    Spells pos ("import".toList ++ ' ' :: (name ++
        ' ' :: ("from".toList ++ ' ' :: ((quote source).toList ++ rest))))
      (importRow [nameToken name] source ++ kinds) := by
  refine .spelled (by decide) (by decide) endsName_space (.space ?_)
  exact .word identifier endsName_space (spells_from h)

/-- An import of one name in braces, with spaces inside them or without. -/
theorem spells_listImport {word : String} (spaces : Bool) (identifier : AsciiIdentifier word.toList)
    (h : ∀ pos, Spells pos rest kinds) (unknown : Keyword.ofText? word = none) :
    Spells pos ("import".toList ++ ' ' :: '{' :: ((if spaces then [' '] else []) ++ (word.toList ++
        ((if spaces then [' '] else []) ++ '}' ::
          ' ' :: ("from".toList ++ ' ' :: ((quote source).toList ++ rest))))))
      (importRow [.punct .braceL, .word word none, .punct .braceR] source ++ kinds) := by
  refine .spelled (by decide) (by decide) endsName_space (.space ?_)
  refine .mark (by decide) (by decide) rfl ?_
  cases spaces with
  | true =>
    refine .space (.spelled identifier unknown endsName_space (.space ?_))
    exact .mark (by decide) (by decide) rfl (spells_from h)
  | false =>
    refine .spelled identifier unknown (endsName_cons (by decide)) ?_
    exact .mark (by decide) (by decide) rfl (spells_from h)

theorem sourcesOf_importRow (clauseOf : ImportClause clause bound) :
    sourcesOf (importRow clause source ++ row) = source :: sourcesOf row := by
  cases clauseOf <;> simp [importRow, sourcesOf]

theorem stringsOf_importRow (clauseOf : ImportClause clause bound) :
    stringsOf (importRow clause source ++ row) = source :: stringsOf row := by
  cases clauseOf <;> simp [importRow, stringsOf]

/-! ## Modules with imports and a default export -/

variable {imports : List Stmt} {span : Span} {value : Expr}

/-- In a module of imports and a default export, only the value refers to something. -/
theorem mem_of_reference (inside : List Node)
    (body : program.body = imports ++ [.exportDefault span value])
    (binding : ∀ s ∈ imports, ∃ span list, s = .importing span list)
    (whole : .part value ∈ inside)
    (closed : ∀ outer ∈ inside, ∀ inner ∈ outer.parts (fun _ => none), inner ∈ inside)
    {node : Node} {place : Span} {name : String}
    (h : program.Reaches (fun _ => none) (fun _ => true) node)
    (refers : node.reference? = some (place, name)) : node ∈ inside := by
  have mem : node ∈ program.body.map (.stmt .body false) ++ inside := by
    refine h.mem_of_closed (fun s mem => List.mem_append_left _ (List.mem_map_of_mem mem)) ?_
    intro outer mem inner part
    refine List.mem_append_right _ ?_
    rcases List.mem_append.mp mem with stmt | mem
    · obtain ⟨s, among, rfl⟩ := List.mem_map.mp stmt
      rw [body] at among
      rcases List.mem_append.mp among with importing | last
      · obtain ⟨span, list, rfl⟩ := binding s importing
        contradiction
      · obtain rfl := List.mem_singleton.mp last
        obtain rfl := List.mem_singleton.mp part
        exact whole
    · exact closed outer mem inner part
  refine (List.mem_append.mp mem).resolve_left fun stmt => ?_
  obtain ⟨s, -, rfl⟩ := List.mem_map.mp stmt
  contradiction

/-- What an operand refers to are words of it. -/
theorem Operand.exists_word {means : Expr → Prop} (operand : Operand tokens means) (fits : means value)
    (body : program.body = imports ++ [.exportDefault span value])
    (binding : ∀ s ∈ imports, ∃ span list, s = .importing span list)
    {node : Node} {place : Span} {name : String}
    (h : program.Reaches (fun _ => none) (fun _ => true) node)
    (refers : node.reference? = some (place, name)) : ∃ keyword, .word name keyword ∈ tokens := by
  cases operand with
  | name =>
    obtain ⟨own, rfl⟩ := fits
    have mem := mem_of_reference [.part (.name own _)] body binding List.mem_cons_self
      (by simp [Node.parts, Node.part]) h refers
    obtain rfl := List.mem_singleton.mp mem
    obtain ⟨-, rfl⟩ := Prod.mk.inj (Option.some.inj refers)
    exact ⟨_, List.mem_cons_self⟩
  | @call callee text =>
    obtain ⟨whole, first, second, rfl⟩ := fits
    have mem := mem_of_reference [.part (.call whole (.name first callee) [.name second text]),
      .part (.name first callee), .part (.name second text)] body binding List.mem_cons_self
      (by simp [Node.parts, Node.part]) h refers
    simp only [List.mem_cons, List.not_mem_nil, or_false] at mem
    rcases mem with rfl | rfl | rfl
    · contradiction
    · obtain ⟨-, rfl⟩ := Prod.mk.inj (Option.some.inj refers)
      exact ⟨_, List.mem_cons_self⟩
    · obtain ⟨-, rfl⟩ := Prod.mk.inj (Option.some.inj refers)
      exact ⟨_, List.mem_cons_of_mem _ (List.mem_cons_of_mem _ List.mem_cons_self)⟩

/-- A module of imports and the default export of an operand, whose names they bind. -/
theorem selfContained_of_operand {written : String} {means : Expr → Prop} (operand : Operand tokens means)
    (fits : means value)
    (named : ∃ row, Spells 0 written.toList (row ++ [.endOfInput]) ∧ sourcesOf row = sources ∧
      stringsOf row = sources)
    (read : parseModule written.toList = .ok program)
    (body : program.body = imports ++ [.exportDefault span value])
    (binding : ∀ s ∈ imports, ∃ span list, s = .importing span list)
    (known : ∀ name keyword, .word name keyword ∈ tokens → name ∈ program.importedNames) :
    SelfContained written sources program where
  named := named
  read := read
  bound := by
    intro node place name h refers
    obtain ⟨keyword, mem⟩ := operand.exists_word fits body binding h refers
    exact known name keyword mem
  default := by
    have none : imports.flatMap Stmt.exportedNames = [] := by
      rw [List.flatMap_eq_nil_iff]
      intro s mem
      obtain ⟨span, list, rfl⟩ := binding s mem
      rfl
    rw [Program.exportedNames, body, List.flatMap_append, none]
    rfl
  nothingElse := by
    intro s mem place
    rw [body] at mem
    rintro rfl
    rcases List.mem_append.mp mem with importing | last
    · obtain ⟨span, list, same⟩ := binding _ importing
      cases same
    · cases List.mem_singleton.mp last

section Written

variable {written : String} (begins : ∀ c ∈ written.toList.head?, c.toNat ≠ 0xFEFF ∧ c ≠ '#')
  (long : 2 ≤ written.toList.length)

include begins long

/-- A text with one import, whose name it exports as its default. -/
theorem exists_selfContained_import (clauseOf : ImportClause clause [text]) (free : FreeWord keyword)
    (spells : Spells 0 written.toList (importRow clause source ++
      .punct .semicolon :: exportRow [.word text keyword, .punct .semicolon, .endOfInput])) :
    ∃ program, SelfContained written [source] program ∧ program.importedNames = [text] := by
  have items : Items 2 (importRow clause source ++
      .punct .semicolon :: (exportRow [.word text keyword] ++ [.punct .semicolon, .endOfInput])) _ _ :=
    .cons (.importing clauseOf) .semicolon (.cons (.exportDefault (.name free)) .semicolon .nil)
  obtain ⟨program, read, _, _, body, ⟨span, list, rfl, binds⟩, _, _, rfl, ⟨span', value, rfl, fits⟩, rfl⟩ :=
    parseModule_of_spells items (by decide) spells (by decide) begins long
  have both : program.body = [.importing span list] ++ [.exportDefault span' value] := body
  have imported : program.importedNames = [text] := by
    rw [Program.importedNames, body, ← binds]
    simp
  have named : ∃ row, Spells 0 written.toList (row ++ [.endOfInput]) ∧ sourcesOf row = [source] ∧
      stringsOf row = [source] := by
    refine ⟨importRow clause source ++
      .punct .semicolon :: exportRow [.word text keyword, .punct .semicolon], ?_, ?_, ?_⟩
    · rw [List.append_assoc]
      exact spells
    · rw [sourcesOf_importRow clauseOf]
      simp [exportRow, sourcesOf]
    · rw [stringsOf_importRow clauseOf]
      simp [exportRow, stringsOf]
  refine ⟨program, selfContained_of_operand (.name free) fits named read both ?_ ?_, imported⟩
  · simp
  · simp [imported]

/-- A text with two imports, which exports the call of the name that the second one binds with the name
that the first one binds. -/
theorem exists_selfContained_call {helpers : String} (clauseOf : ImportClause clause [text])
    (free : FreeWord keyword)
    (spells : Spells 0 written.toList (importRow clause source ++ .punct .semicolon ::
      (importRow [.punct .braceL, .word callee none, .punct .braceR] helpers ++ .punct .semicolon ::
        exportRow [.word callee none, .punct .parenL, .word text keyword, .punct .parenR, .endOfInput]))) :
    ∃ program, SelfContained written [source, helpers] program ∧
      program.importedNames = [text, callee] := by
  have items : Items 3 (importRow clause source ++ .punct .semicolon ::
      (importRow [.punct .braceL, .word callee none, .punct .braceR] helpers ++ .punct .semicolon ::
        (exportRow [.word callee none, .punct .parenL, .word text keyword, .punct .parenR] ++
          [.endOfInput]))) _ _ :=
    .cons (.importing clauseOf) .semicolon (.cons (.importing .list) .semicolon
      (.cons (.exportDefault (.call free)) .last .nil))
  obtain ⟨program, read, _, _, body, ⟨span, list, rfl, binds⟩, _, _, rfl, ⟨span', list', rfl, binds'⟩,
    _, _, rfl, ⟨span'', value, rfl, fits⟩, rfl⟩ :=
    parseModule_of_spells items (by decide) spells (by decide) begins long
  have all : program.body =
      [.importing span list, .importing span' list'] ++ [.exportDefault span'' value] := body
  have imported : program.importedNames = [text, callee] := by
    rw [Program.importedNames, body]
    simp [binds, binds']
  have named : ∃ row, Spells 0 written.toList (row ++ [.endOfInput]) ∧
      sourcesOf row = [source, helpers] ∧ stringsOf row = [source, helpers] := by
    refine ⟨importRow clause source ++ .punct .semicolon ::
      (importRow [.punct .braceL, .word callee none, .punct .braceR] helpers ++ .punct .semicolon ::
        exportRow [.word callee none, .punct .parenL, .word text keyword, .punct .parenR]), ?_, ?_, ?_⟩
    · rw [List.append_assoc, List.cons_append, List.append_assoc]
      exact spells
    · rw [sourcesOf_importRow clauseOf]
      simp [importRow, exportRow, sourcesOf]
    · rw [stringsOf_importRow clauseOf]
      simp [importRow, exportRow, stringsOf]
  refine ⟨program, selfContained_of_operand (.call free) fits named read all ?_ ?_, imported⟩
  · simp
  · intro name other mem
    rw [imported]
    simp only [List.mem_cons, TokenKind.word.injEq, reduceCtorEq, List.not_mem_nil, false_or,
      or_false] at mem
    rcases mem with ⟨rfl, -⟩ | ⟨rfl, -⟩
    · exact List.mem_cons_of_mem _ List.mem_cons_self
    · exact List.mem_cons_self

/-- A text that takes its default from another module. -/
theorem exists_selfContained_from
    (spells : Spells 0 written.toList ([.word "export" (some .export), .punct .braceL,
      .word "default" (some .default), .punct .braceR, .word "from" (some .from),
      .literal (.string source) "string", .punct .semicolon] ++ [.endOfInput])) :
    ∃ program, SelfContained written [source] program ∧ program.importedNames = [] := by
  have items : Items 1 ([.word "export" (some .export), .punct .braceL,
      .word "default" (some .default), .punct .braceR, .word "from" (some .from),
      .literal (.string source) "string"] ++ [.punct .semicolon, .endOfInput]) _ _ :=
    .cons .exportFrom .semicolon .nil
  obtain ⟨program, read, _, _, body, ⟨span, entry, rfl, exported⟩, rfl⟩ :=
    parseModule_of_spells items (by decide) spells (by decide) begins long
  -- Nothing is reached but the statement, which refers to nothing of its own.
  have nothing (node : Node) (place : Span) (name : String)
      (h : program.Reaches (fun _ => none) (fun _ => true) node)
      (refers : node.reference? = some (place, name)) : False := by
    have mem : node ∈ [Node.stmt .body false (.exportNames span [entry] (some source))] :=
      h.mem_of_closed (by simp [body]) (by simp [Node.parts])
    obtain rfl := List.mem_singleton.mp mem
    contradiction
  refine ⟨program, ?_, by simp [Program.importedNames, body]⟩
  exact {
    named := ⟨_, spells, by simp [sourcesOf], by simp [stringsOf]⟩
    read := read
    bound := fun node place name h refers => (nothing node place name h refers).elim
    default := by simp [Program.exportedNames, body, Stmt.exportedNames, exported]
    nothingElse := by simp [body] }

end Written

end ModuleInterop.Syntax
