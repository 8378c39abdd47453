import ModuleInterop.Proofs.Usage.Standing

/-!
# The names of bindings

Every name that is declared anywhere in a module that has been read is a word of the text, and it is no
reserved word (`Program.Reaches.usable`).  The names that a declaration binds are declared by nodes that
it leads to, however deep they stand in its patterns (`Program.Reaches.exists_declaring`).
-/

set_option autoImplicit false

namespace ModuleInterop.Syntax

variable {source : List Char} {lo hi : Nat} {node : Node} {name : Name}

/-- The places of the names that a node declares are among its pieces, or the node is one of them. -/
theorem Node.bound_mem_of_declared (mem : name ∈ node.declared) :
    node = bound name ∨ bound name ∈ node.pieces := by
  unfold declared at mem
  split at mem
  · exact .inr (List.mem_append_left _ (List.mem_map_of_mem mem))
  · refine .inr (List.mem_append_right _ (List.mem_append_left _ (List.mem_map_of_mem mem)))
  · rw [List.mem_singleton.mp mem]
    exact .inl rfl
  · exact .inr (List.mem_map_of_mem mem)
  · contradiction

/-- A name that is declared where a node is laid is usable there. -/
theorem Laid.usable (laid : Laid source 0 lo hi node) (mem : name ∈ node.declared) :
    name.Usable source 0 := by
  rcases node.bound_mem_of_declared mem with rfl | piece
  · exact laid.fits.2
  · obtain ⟨_, _, -, -, bound⟩ := laid.pieces.exists_laid piece
    exact bound.fits.2

namespace Program.Reaches

variable {program : Program} {known : Expr → Option Bool} {enters : Node → Bool}

/-- **A name that is declared anywhere in a module** is a word of its text, and no reserved one. -/
theorem usable (parsed : parseModule source = .ok program) (h : program.Reaches known enters node)
    (mem : name ∈ node.declared) : name.Usable source 0 := by
  obtain ⟨lo, hi, laid⟩ := h.exists_laid parsed
  exact laid.usable mem

mutual

/-- The names of a pattern are declared by nodes that it leads to. -/
theorem exists_declaring_of_names {p : Pattern} (h : program.Reaches known (fun _ => true) (.pattern p))
    (mem : name ∈ p.names) :
    ∃ node, program.Reaches known (fun _ => true) node ∧ name ∈ node.declared := by
  cases p with
  | binding other => exact ⟨_, h, mem⟩
  | withDefault span inner default =>
    exact exists_declaring_of_names (h.part rfl List.mem_cons_self) mem
  | array span elements =>
    exact exists_declaring_of_allNames (fun p mem => h.part rfl (List.mem_map_of_mem mem)) mem
  | object span properties =>
    exact exists_declaring_of_allNames (fun p mem => h.part rfl (List.mem_map_of_mem mem)) mem
  | property span computed value =>
    exact exists_declaring_of_names (h.part rfl (List.mem_append_right _ List.mem_cons_self)) mem
  | rest span inner => exact exists_declaring_of_names (h.part rfl List.mem_cons_self) mem
  | target place => contradiction
  | shorthand span other default => contradiction

/-- The names of patterns are declared by nodes that these lead to. -/
theorem exists_declaring_of_allNames {ps : List Pattern}
    (h : ∀ p ∈ ps, program.Reaches known (fun _ => true) (.pattern p))
    (mem : name ∈ Pattern.allNames ps) :
    ∃ node, program.Reaches known (fun _ => true) node ∧ name ∈ node.declared := by
  cases ps with
  | nil => contradiction
  | cons p ps =>
    rcases List.mem_append.mp mem with here | there
    · exact exists_declaring_of_names (h p List.mem_cons_self) here
    · exact exists_declaring_of_allNames (fun p mem => h p (List.mem_cons_of_mem _ mem)) there

end

/-- **The names that a declaration binds** are declared by nodes that it leads to. -/
theorem exists_declaring {home : Usage.Home} {concise : Bool} {d : Stmt}
    (h : program.Reaches known (fun _ => true) (.stmt home concise d))
    (mem : name ∈ Parser.declaredNames d) :
    ∃ node, program.Reaches known (fun _ => true) node ∧ name ∈ node.declared := by
  unfold Parser.declaredNames at mem
  split at mem
  · rename_i span kind list
    obtain ⟨⟨span, target, init⟩, among, named⟩ := List.mem_flatMap.mp mem
    have variable' := h.part rfl (List.mem_map_of_mem among)
    exact exists_declaring_of_names (variable'.part rfl List.mem_cons_self) named
  · exact ⟨_, h.part rfl List.mem_cons_self, mem⟩
  · exact ⟨_, h.part rfl List.mem_cons_self, mem⟩
  · contradiction

end Program.Reaches

end ModuleInterop.Syntax
