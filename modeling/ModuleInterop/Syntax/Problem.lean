/-!
# Problems of a source text

Why a text is not a module: the cause, with the words that its message names, and the position it
is reported at.
-/

set_option autoImplicit false

namespace ModuleInterop.Syntax

/-- The causes for which a text is refused. -/
inductive Cause where
  | unexpectedToken
  | unexpectedEnd
  | expected (wanted found : String)
  | expectedSeparator (separator closing found : String)
  | missingSemicolon
  | invalidCharacter (c : Char)
  | invalidEscape
  | invalidNameEscape
  | invalidTemplateEscape
  | numberEnd
  | unterminatedString
  | unterminatedRegex
  | unterminatedComment
  | regexFlag (flag : Char)
  | regexFlagTwice (flag : Char)
  | escapedKeyword
  | emptyParentheses
  | functionName
  | className
  | missingCatch
  | switchClause
  | newTarget
  | throwNewline
  | arrowNewline
  | cannotAssign
  | awaitName
  | yieldName
  | reservedName (name : String)
  | awaitOutside
  | yieldOutside
  | returnOutside
  | constInitializer
  | destructuringInitializer
  | coverInitializer
  | duplicateExport (name : String)
  | lexicalInStatement
  | functionInStatement (described : String)
  | classInStatement
  | restLast
  | restElementLast
  | restTrailingComma
  | spreadLast
  | restIdentifier
  | mixedCoalesce
  | unaryPower (operator : String)
  | unexpectedSuper
  | newChain
  | newImport
  | templateInChain
  | importArguments
  | importSpecifier
  | forAwait
  | forOfAsync
  | exportString
  | exportReserved
  | getterParameters
  | setterParameters
  | staticPrototype
  | privateConstructor
  | privateOperand
  deriving DecidableEq, Repr

/-- The wording of a cause. -/
def Cause.message : Cause → String
  | .unexpectedToken => "Unexpected token"
  | .unexpectedEnd => "Unexpected end of file"
  | .expected wanted found => "Expected `" ++ wanted ++ "` but found `" ++ found ++ "`"
  | .expectedSeparator separator closing found =>
    "Expected `" ++ separator ++ "` or `" ++ closing ++ "` but found `" ++ found ++ "`"
  | .missingSemicolon =>
    "Expected a semicolon or an implicit semicolon after a statement, but found none"
  | .invalidCharacter c => "Invalid Character `" ++ String.ofList [c] ++ "`"
  | .invalidEscape => "Invalid escape sequence"
  | .invalidNameEscape => "Invalid Unicode escape sequence"
  | .invalidTemplateEscape => "Bad escape sequence in untagged template literal"
  | .numberEnd => "Invalid characters after number"
  | .unterminatedString => "Unterminated string"
  | .unterminatedRegex => "Unterminated regular expression"
  | .unterminatedComment => "Unterminated multiline comment"
  | .regexFlag f => "Unexpected flag " ++ String.ofList [f] ++ " in regular expression literal"
  | .regexFlagTwice f =>
    "Flag " ++ String.ofList [f] ++ " is mentioned twice in regular expression literal"
  | .escapedKeyword => "Keywords cannot contain escape characters"
  | .emptyParentheses => "Empty parenthesized expression"
  | .functionName => "Expected function name"
  | .className => "A class name is required."
  | .missingCatch => "Missing catch or finally clause"
  | .switchClause => "Expected switch clause"
  | .newTarget => "The only valid meta property for new is new.target"
  | .throwNewline => "Illegal newline after throw"
  | .arrowNewline => "Line terminator not permitted before arrow"
  | .cannotAssign => "Cannot assign to this expression"
  | .awaitName => "Cannot use `await` as an identifier in an async context"
  | .yieldName => "Cannot use `yield` as an identifier in a generator context"
  | .reservedName name =>
    "Identifier expected. '" ++ name ++ "' is a reserved word that cannot be used here."
  | .awaitOutside =>
    "`await` is only allowed within async functions and at the top levels of modules"
  | .yieldOutside => "A 'yield' expression is only allowed in a generator body."
  | .returnOutside => "A 'return' statement can only be used within a function body."
  | .constInitializer => "Missing initializer in const declaration"
  | .destructuringInitializer => "Missing initializer in destructuring declaration"
  | .coverInitializer => "Invalid assignment in object literal"
  | .duplicateExport name => "Duplicated export '" ++ name ++ "'"
  | .lexicalInStatement => "Lexical declaration cannot appear in a single-statement context"
  | .functionInStatement described =>
    described ++ " can only be declared at the top level or inside a block"
  | .classInStatement => "Invalid class declaration"
  | .restLast => "A rest parameter must be last in a parameter list"
  | .restElementLast => "A rest element must be last in a destructuring pattern"
  | .restTrailingComma => "A rest parameter or binding pattern may not have a trailing comma."
  | .spreadLast => "Spread must be last element"
  | .restIdentifier => "Invalid rest element"
  | .mixedCoalesce => "Logical expressions and coalesce expressions cannot be mixed"
  | .unaryPower operator => "Unexpected " ++ operator ++ " exponentiation expression"
  | .unexpectedSuper => "'super' can only be used with function calls or in property accesses"
  | .newChain => "Optional chaining cannot appear in the callee of new expressions"
  | .newImport => "Cannot use new with dynamic import"
  | .templateInChain => "Tagged template expressions are not permitted in an optional chain"
  | .importArguments =>
    "Dynamic imports can only accept a module specifier and an optional set of attributes " ++
      "as arguments"
  | .importSpecifier => "import() requires a specifier."
  | .forAwait => "await can only be used in conjunction with `for...of` statements"
  | .forOfAsync => "The left-hand side of a `for...of` statement may not be `async`"
  | .exportString =>
    "A string literal cannot be used as an exported binding without `from`"
  | .exportReserved =>
    "A reserved word cannot be used as an exported binding without `from`"
  | .getterParameters => "A 'get' accessor must not have any formal parameters."
  | .setterParameters => "A 'set' accessor must have exactly one parameter."
  | .staticPrototype => "Classes may not have a static property named prototype"
  | .privateConstructor => "Classes can't have an element named '#constructor'"
  | .privateOperand => "Unexpected private identifier"

/-- A cause and the position it is reported at. -/
structure Problem where
  cause : Cause
  offset : Nat
  deriving DecidableEq, Repr

end ModuleInterop.Syntax
