import ModuleInterop.Syntax.Parser.Statement

/-!
# Modules

Imports and exports, the whole grammar, and the reading of a module.  `Grammar.level` closes the
circle of the productions: at each level they call back those of the level below, so a level bounds
how deeply productions nest.  No text nests them more deeply than `Grammar.ofText` allows, because
between two productions that do not call each other back directly a character is read.
-/

set_option autoImplicit false

namespace ModuleInterop.Syntax

namespace Parser

/-- A name in an import or export list. -/
def externalName : Parser ExternalName := do
  let current ← token
  match current.kind with
  | .literal (.string value) _ =>
    advance
    return ⟨current.span, value, true⟩
  | _ =>
    let name ← wordText
    return ⟨name.span, name.text, false⟩

/-- Records that a name is exported. -/
def recordExport (text : String) (offset : Nat) : Parser Unit :=
  modify fun state => { state with exported := (text, offset) :: state.exported }

/-- The attributes after a module's name. -/
def importAttributes : Parser Unit := do
  let current ← token
  if isWord current .with || (isWord current .assert && !current.newlineBefore) then
    bump
    expect .braceL
    let _ ← delimited .braceR do
      let _ ← externalName
      expect .colon
      stringLiteral
    expect .braceR

/-- An entry of an import list: the name it binds. -/
def importSpecifier : Parser Name := do
  let current ← token
  match current.kind with
  | .literal (.string _) _ =>
    advance
    expectWord .as
    bindingName
  | _ =>
    let next ← nextToken
    if isWord next .as then
      let _ ← wordText
      bump
      bindingName
    else bindingName

/-- The import of a whole module as one name. -/
def importNamespace : Parser Name := do
  expect .star
  expectWord .as
  bindingName

/-- What an import lists after its default name. -/
def importList : Parser (List Name) := do
  match (← token).kind with
  | .punct .star => return [← importNamespace]
  | .punct .braceL =>
    bump
    let (list, _) ← delimited .braceR importSpecifier
    expect .braceR
    return list
  | _ => unexpected

/-- Whether a token may stand after the name of a default import, not after a phase. -/
def endsDefaultName (current : Token) : Bool :=
  match current.kind with
  | .punct .comma => true
  | .word _ (some .from) => true
  | _ => false

/-- An import. -/
def importStatement : Parser Stmt := do
  let first ← start
  bump
  let bindings ←
    match (← token).kind with
    | .literal (.string _) _ => pure []
    | _ => do
      let current ← token
      let next ← nextToken
      -- A phase: `import defer * as ns from` and `import source x from`.
      if isWord current .defer && next.kind == .punct .star then advance
      else if isWord current .source && next.kind.isName && !isWord next .from then advance
      let bindings ←
        if (← token).kind.isName then do
          let name ← bindingName
          if ← eat .comma then pure (name :: (← importList)) else pure [name]
        else
          match (← token).kind with
          | .punct .star | .punct .braceL => importList
          | _ => pure []
      expectWord .from
      pure bindings
  let _ ← stringLiteral
  importAttributes
  endStatement
  return .importing (← spanFrom first) bindings

/-- The names that a declaration binds. -/
def declaredNames : Stmt → List Name
  | .variables _ _ list => list.flatMap fun | .mk _ target _ => target.names
  | .declaration (.function _ _ name _ _) => name.toList
  | .declaration (.class _ _ _ name _ _) => name.toList
  | _ => []

/-- The export of a declaration, after the word `export`. -/
def exportDeclaration (g : Grammar) (first : Nat) (marks : List Expr) : Parser Stmt := do
  let current ← token
  let own ← decorators g
  let declaration ← match current.kind with
    | .punct .at => classStatement g true own
    | .word _ (some .class) => classStatement g true marks
    | .word _ (some .var) | .word _ (some .const) | .word _ (some .let) =>
      variableStatement g true
    | .word _ (some .using) | .word _ (some .await) =>
      if ← atUsing then variableStatement g true else unexpected
    | _ => if ← atFunction then functionStatement g true else unexpected
  (declaredNames declaration).forM fun name => recordExport name.text name.span.start
  return .exportDeclaration (← spanFrom first) declaration

/-- A default export, from the word `default` on. -/
def exportDefault (g : Grammar) (first : Nat) (marks : List Expr) : Parser Stmt := do
  recordExport "default" (← start)
  bump
  let own ← decorators g
  if ← atWord .class then
    let value ← classFrom g .exportedDefault (marks ++ own)
    return .exportDefaultDeclaration (← spanFrom first) value
  else if ← atFunction then
    let (value, _) ← functionFrom g .exportedDefault
    return .exportDefaultDeclaration (← spanFrom first) value
  else
    let value ← g.assignment
    endStatement
    return .exportDefault (← spanFrom first) value

/-- The export of everything a module exports, from the star on. -/
def exportAll (first : Nat) : Parser Stmt := do
  bump
  let exported ← if ← eatWord .as then some <$> externalName else pure none
  match exported with
  | some name => recordExport name.text name.span.start
  | none => pure ()
  expectWord .from
  let _ ← stringLiteral
  importAttributes
  endStatement
  return .exportAll (← spanFrom first) exported

/-- An entry of an export list. -/
def exportSpecifier : Parser ExportSpecifier := do
  let inner ← externalName
  let exported ← if ← eatWord .as then externalName else pure inner
  return ⟨inner, exported⟩

/-- The words that may not be exported by a list without a module. -/
def reservedInList : List String :=
  ["implements", "interface", "let", "package", "private", "protected", "public", "static"]

/-- Refuses an entry that cannot be the name of a binding. -/
def checkOwnExport (specifier : ExportSpecifier) : Parser Unit := do
  if specifier.inner.isString then report .exportString specifier.inner.span.start
  else if ((Keyword.ofText? specifier.inner.text).map Keyword.isReserved).getD false ||
      reservedInList.contains specifier.inner.text then
    report .exportReserved specifier.inner.span.start

/-- An export list, with the module it takes the names from perhaps. -/
def exportList (first : Nat) : Parser Stmt := do
  bump
  let (list, _) ← delimited .braceR exportSpecifier
  expect .braceR
  let source ←
    if ← eatWord .from then
      let source ← stringLiteral
      importAttributes
      pure (some source)
    else pure none
  if source.isNone then list.forM checkOwnExport
  list.forM fun entry => recordExport entry.exported.text entry.exported.span.start
  endStatement
  return .exportNames (← spanFrom first) list source

/-- An export. -/
def exportStatement (g : Grammar) (marks : List Expr) : Parser Stmt := do
  let first ← start
  bump
  match (← token).kind with
  | .word _ (some .default) => exportDefault g first marks
  | .punct .star => exportAll first
  | .punct .braceL => exportList first
  | _ => exportDeclaration g first marks

/-- A statement. -/
def statement (g : Grammar) (inList : Bool) : Parser Stmt := do
  let current ← token
  match current.kind with
  | .punct .at =>
    let marks ← decorators g
    if ← atWord .export then exportStatement g marks
    else if ← atWord .class then classStatement g inList marks
    else unexpected
  | .word _ (some .export) => exportStatement g []
  | .word _ (some .import) =>
    match (← nextToken).kind with
    | .punct .dot | .punct .parenL => expressionStatement g
    | _ => importStatement
  | _ => plainStatement g inList

end Parser

/-- The productions at a depth of nesting. -/
def Grammar.level : Nat → Grammar
  | 0 =>
    { assignment := Parser.unexpected, unary := Parser.unexpected,
      binary := fun _ => Parser.unexpected, member := Parser.unexpected,
      operand := Parser.unexpected, pattern := Parser.unexpected,
      statement := fun _ => Parser.unexpected }
  | n + 1 =>
    let g := Grammar.level n
    { assignment := Parser.assignmentExpression g, unary := Parser.unaryExpression g,
      binary := Parser.binaryExpression g, member := Parser.memberExpression g,
      operand := Parser.operandExpression g, pattern := Parser.bindingPattern g,
      statement := Parser.statement g }

/-- The productions at a depth that no nesting in the text reaches. -/
def Grammar.ofText (text : List Char) : Grammar := Grammar.level (4 * text.length + 8)

/-- The first name in order that is exported a second time, with the place of the entry before. -/
def duplicateExport? : List (String × Nat) → List (String × Nat) → Option (String × Nat)
  | _, [] => none
  | seen, entry :: entries =>
    match seen.find? fun e => e.1 == entry.1 with
    | some old => some old
    | none => duplicateExport? (entry :: seen) entries

/-- The problem that a text is refused for although it could be read to its end. -/
def ParseState.finalProblem? (state : ParseState) : Option Problem :=
  match state.firstProblem? with
  | some problem => some problem
  | none =>
    match state.pendingDefaults.getLast? with
    | some span => some ⟨.coverInitializer, span.start⟩
    | none =>
      (duplicateExport? [] state.exported.reverse).map fun e => ⟨.duplicateExport e.1, e.2⟩

/-- Reads a module.  A value may be returned at its top level. -/
def parseModule (text : List Char) : Except Problem Program :=
  match Parser.bodyStatements (Grammar.ofText text) true Context.top (ParseState.start text) with
  | .error failure => .error failure.problem
  | .ok (body, state) =>
    match state.finalProblem? with
    | some problem => .error problem
    | none => .ok ⟨body⟩

end ModuleInterop.Syntax
