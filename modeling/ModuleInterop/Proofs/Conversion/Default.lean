import ModuleInterop.Proofs.Conversion.Item

/-!
# Default exports of a module that is converted

A default export is an export of the module, so a conversion edits it only in what it exports
(`Emitted.keeps`): the words that make it one are copied.
-/

set_option autoImplicit false

namespace ModuleInterop.Conversion

open ModuleInterop.Syntax ModuleInterop.Scope ModuleInterop.Usage ModuleInterop.Patch
  ModuleInterop.Text

variable {program : Program} {source : List Char} {id : String} {options : Options}
  {out : Converted} {edited : Output}

/-- A statement is kept in an edited text, but for what it exports: all stretches that belong to
nothing of that are copied. -/
def Keeps (source : List Char) (edited : Output) (s : Stmt) : Prop :=
  ∀ n text, StandsAt source n text → s.span.start ≤ n → n + byteLength text ≤ s.span.stop →
    (∀ start stop, s.Yields start stop → stop ≤ n ∨ n + byteLength text ≤ start) →
      copiedText n text <:+: edited.glyphs

/-- **A default export is kept**, but for what it exports. -/
theorem Emitted.keeps (emitted : Emitted program source id options out edited)
    (parsed : parseModule source = .ok program) {s : Stmt} (mem : s ∈ program.body)
    (exports : s.exportsDefault = true) : Keeps source edited s := by
  intro n text stands low high away
  refine emitted.retained parsed mem (Stmt.isModuleItem_of_exportsDefault exports) n text stands low
    high ?_
  exact fun start stop hosts => away start stop (hosts.yields exports)

end ModuleInterop.Conversion
