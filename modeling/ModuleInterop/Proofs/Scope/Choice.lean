import Mathlib.Data.List.Induction
import ModuleInterop.Proofs.Scope.Claim

/-!
# The first name that is free

The name that is chosen for a candidate is the first of the candidates that nothing in sight takes
(`freshName_first`): a name is taken where the scope or a scope around it binds it, where it is free in
the module, and where no binding may have it.  Names that are chosen one after the other, each one in
the scope of the earlier choices or further inside, differ from one another and from all that was in
sight (`first_free_names`).  What carries this is that a chosen name is registered where it was chosen,
and so it is in sight of all later choices (`Chosen.step`).
-/

set_option autoImplicit false

namespace ModuleInterop.Scope

/-! ## What is in sight -/

namespace ScopeTree

/-- A scope binds a name: it declares the name, or the name was generated into it. -/
def Binds (tree : ScopeTree) (scope : Nat) (name : String) : Prop :=
  (∃ entry, tree.scopes[scope]? = some entry ∧ name ∈ entry.names.map Prod.fst) ∨
    (scope, name) ∈ tree.generated

/-- A name is in sight of a scope: the scope binds it, or a scope around it does. -/
def InSight (tree : ScopeTree) (scope : Nat) (name : String) : Prop :=
  ∃ i ∈ tree.chain scope, tree.Binds i name

variable {tree : ScopeTree} {scope : Nat} {name : String}

theorem declares_iff_binds : tree.declares scope name = true ↔ tree.Binds scope name := by
  unfold declares Binds
  rw [Bool.or_eq_true]
  refine or_congr ?_ ?_
  · cases tree.scopes[scope]? with
    | none => simp
    | some entry => simp
  · rw [List.any_eq_true]
    constructor
    · rintro ⟨⟨i, other⟩, mem, same⟩
      rw [Bool.and_eq_true, beq_iff_eq, beq_iff_eq] at same
      obtain ⟨rfl, rfl⟩ := same
      exact mem
    · intro mem
      exact ⟨_, mem, by simp⟩

theorem sees_iff_inSight : tree.sees scope name = true ↔ tree.InSight scope name := by
  simp only [sees, InSight, List.any_eq_true, declares_iff_binds]

end ScopeTree

/-- A name may be given to a binding in a scope. -/
structure Available (tree : ScopeTree) (scope : Nat) (globals : List String) (name : String) :
    Prop where
  unseen : ¬ tree.InSight scope name
  notGlobal : name ∉ globals
  allowed : name ∉ unavailable

variable {tree : ScopeTree} {scope : Nat} {globals : List String} {name : String}

theorem isTaken_eq_false_iff :
    isTaken tree scope globals name = false ↔ Available tree scope globals name := by
  unfold isTaken
  rw [Bool.or_eq_false_iff, Bool.or_eq_false_iff, ← Bool.not_eq_true, ScopeTree.sees_iff_inSight]
  constructor
  · rintro ⟨⟨unseen, other⟩, allowed⟩
    exact ⟨unseen, by simpa using other, by simpa using allowed⟩
  · rintro ⟨unseen, other, allowed⟩
    exact ⟨⟨unseen, by simpa using other⟩, by simpa using allowed⟩

/-! ## The first candidate -/

/-- **The chosen name is the first candidate that is available.**  It comes after at most as many
candidates as there are names that may be in the way. -/
theorem freshName_first (tree : ScopeTree) (scope : Nat) (globals : List String)
    (candidate : String) :
    ∃ n ≤ tree.allNames.length + globals.length + unavailable.length,
      freshName tree scope globals candidate = candidateName candidate n ∧
      Available tree scope globals (candidateName candidate n) ∧
      ∀ i < n, ¬ Available tree scope globals (candidateName candidate i) := by
  let taken : Nat → Bool := fun n => isTaken tree scope globals (candidateName candidate n)
  let limit := tree.allNames.length + globals.length + unavailable.length
  have free := freshName_not_taken tree scope globals candidate
  refine ⟨firstFree taken limit 0, ?_, rfl, isTaken_eq_false_iff.mp free, ?_⟩
  · have := @firstFree_le taken limit 0
    omega
  · intro i passed available
    have here : taken i = true := taken_of_lt_firstFree (Nat.zero_le i) passed
    exact absurd (isTaken_eq_false_iff.mpr available) (by simpa [taken] using here)

/-! ## Choices one after the other -/

/-- A binding that needs a name: its scope, the names that are free in the module, and the candidate. -/
structure Request where
  scope : Nat
  globals : List String
  candidate : String
  deriving DecidableEq, Repr

/-- Chooses a name for one more binding; with the choices so far. -/
def choose (state : List (Request × String) × ScopeTree) (request : Request) :
    List (Request × String) × ScopeTree :=
  let (name, tree) := claimName state.2 request.scope request.globals request.candidate
  (state.1 ++ [(request, name)], tree)

/-- Chooses names for bindings one after the other; with the scopes that have them then. -/
def chooseAll (tree : ScopeTree) (requests : List Request) :
    List (Request × String) × ScopeTree :=
  requests.foldl choose ([], tree)

/-- Names have been chosen: each one is registered in the scope it was chosen for, and no two of them are
the same. -/
structure Chosen (tree : ScopeTree) (state : List (Request × String) × ScopeTree) : Prop where
  scopes : state.2.scopes = tree.scopes
  registered : ∀ choice ∈ state.1, (choice.1.scope, choice.2) ∈ state.2.generated
  distinct : (state.1.map Prod.snd).Nodup

namespace Chosen

variable {state : List (Request × String) × ScopeTree} {request : Request}

theorem start (tree : ScopeTree) : Chosen tree ([], tree) := ⟨rfl, nofun, List.nodup_nil⟩

/-- A chosen name is in sight of its scope and of all scopes inside. -/
theorem inSight (h : Chosen tree state) {choice : Request × String} (mem : choice ∈ state.1)
    {inner : Nat} (inside : choice.1.scope ∈ tree.chain inner) :
    state.2.InSight inner choice.2 :=
  ⟨choice.1.scope, by rwa [ScopeTree.chain_congr h.scopes], .inr (h.registered choice mem)⟩

/-- The name that is chosen next is available. -/
theorem available (state : List (Request × String) × ScopeTree) (request : Request) :
    Available state.2 request.scope request.globals
      (freshName state.2 request.scope request.globals request.candidate) :=
  isTaken_eq_false_iff.mp (freshName_not_taken _ _ _ _)

/-- **One more choice**, in the scope of the choices before it or further inside. -/
theorem step (h : Chosen tree state)
    (inside : ∀ choice ∈ state.1, choice.1.scope ∈ tree.chain request.scope) :
    Chosen tree (choose state request) where
  scopes := h.scopes
  registered := by
    intro choice mem
    rcases List.mem_append.mp mem with earlier | last
    · exact List.mem_append_left _ (h.registered choice earlier)
    · rw [List.mem_singleton.mp last]
      exact List.mem_append_right _ (List.mem_singleton.mpr rfl)
  distinct := by
    rw [choose, List.map_append]
    refine List.nodup_append.mpr ⟨h.distinct, List.nodup_singleton _, ?_⟩
    -- An earlier name is in sight here, and the one that is chosen here was not.
    rintro name mem other last rfl
    obtain ⟨choice, among, named⟩ := List.mem_map.mp mem
    obtain rfl := List.mem_singleton.mp last
    have seen := h.inSight among (inside choice among)
    rw [named] at seen
    exact (available state request).unseen seen

/-- **A run of choices**, each one in the scope of those before it or further inside. -/
theorem foldl (h : Chosen tree state) {requests : List Request}
    (inside : (state.1.map Prod.fst ++ requests).Pairwise fun a b => a.scope ∈ tree.chain b.scope) :
    Chosen tree (requests.foldl choose state) := by
  induction requests generalizing state with
  | nil => exact h
  | cons request requests ih =>
    have here : ∀ choice ∈ state.1, choice.1.scope ∈ tree.chain request.scope := by
      intro choice mem
      have before := (List.pairwise_append.mp inside).2.2
      exact before choice.1 (List.mem_map_of_mem mem) request List.mem_cons_self
    refine ih (h.step here) ?_
    rw [choose, List.map_append, List.append_assoc]
    exact inside

end Chosen

/-- Choices that were made stay as they are. -/
theorem prefix_foldl_choose (state : List (Request × String) × ScopeTree) (requests : List Request) :
    state.1 <+: (requests.foldl choose state).1 := by
  induction requests generalizing state with
  | nil => exact List.prefix_rfl
  | cons request requests ih => exact (List.prefix_append _ _).trans (ih (choose state request))

/-- There is one choice for each request, in their order. -/
theorem requests_chooseAll (tree : ScopeTree) (requests : List Request) :
    (chooseAll tree requests).1.map Prod.fst = requests := by
  induction requests using List.reverseRecOn with
  | nil => rfl
  | append_singleton requests request ih =>
    unfold chooseAll at ih ⊢
    rw [List.foldl_append, List.foldl_cons, List.foldl_nil, choose, List.map_append, ih]
    rfl

/-- **Names are chosen so that nothing collides.**  For a candidate the first name is chosen that is in
sight neither of the scope nor free in the module nor a word that no binding may have; there is one.  And
where names are chosen one after the other, each one in the scope of the choices before it or further
inside, they are distinct; each one is available when it is chosen, and in the end it is in sight of its
scope and of all scopes inside. -/
theorem first_free_names (tree : ScopeTree) :
    (∀ scope globals candidate,
      ∃ n ≤ tree.allNames.length + globals.length + unavailable.length,
        freshName tree scope globals candidate = candidateName candidate n ∧
        Available tree scope globals (candidateName candidate n) ∧
        ∀ i < n, ¬ Available tree scope globals (candidateName candidate i)) ∧
    ∀ requests : List Request, requests.Pairwise (fun a b => a.scope ∈ tree.chain b.scope) →
      ((chooseAll tree requests).1.map Prod.snd).Nodup ∧
      ∀ before request after, requests = before ++ request :: after →
        ∃ name, (chooseAll tree requests).1[before.length]? = some (request, name) ∧
          name = freshName (chooseAll tree before).2 request.scope request.globals
            request.candidate ∧
          Available (chooseAll tree before).2 request.scope request.globals name ∧
          ∀ inner, request.scope ∈ tree.chain inner →
            (chooseAll tree requests).2.InSight inner name := by
  refine ⟨fun scope globals candidate => freshName_first tree scope globals candidate, ?_⟩
  intro requests inside
  have chosen : Chosen tree (chooseAll tree requests) := (Chosen.start tree).foldl inside
  refine ⟨chosen.distinct, ?_⟩
  rintro before request after rfl
  let earlier := chooseAll tree before
  let name := freshName earlier.2 request.scope request.globals request.candidate
  have begun : earlier.1 ++ [(request, name)] <+:
      (chooseAll tree (before ++ request :: after)).1 := by
    rw [chooseAll, List.foldl_append]
    exact prefix_foldl_choose (choose earlier request) after
  have count : before.length = earlier.1.length := by
    exact (congrArg List.length (requests_chooseAll tree before)).symm.trans (List.length_map _)
  have made : (chooseAll tree (before ++ request :: after)).1[before.length]? =
      some (request, name) := by
    obtain ⟨rest, whole⟩ := begun
    rw [← whole, count]
    simp
  refine ⟨name, made, rfl, Chosen.available earlier request, ?_⟩
  intro inner within
  exact chosen.inSight (List.mem_of_getElem? made) within

/-- A function in a module: the module declares `lib`, and the function `lib_1`. -/
def nestedScopes : ScopeTree :=
  ⟨[⟨[], true, [("lib", 0)], []⟩, ⟨[0], true, [("lib_1", 1)], []⟩], []⟩

/-- Names for the same candidate, in the module and then twice in the function. -/
def libRequests : List Request := [⟨0, ["lib_2"], "lib"⟩, ⟨1, [], "lib"⟩, ⟨1, [], "lib"⟩]

/-- The choice in the module passes over the name that is free, and not over that of the function; the
choices in the function pass over those in sight. -/
theorem libs_chosen :
    libRequests.Pairwise (fun a b => a.scope ∈ nestedScopes.chain b.scope) ∧
      (chooseAll nestedScopes libRequests).1.map Prod.snd = ["lib_1", "lib_2", "lib_3"] ∧
      (chooseAll nestedScopes libRequests).2.InSight 1 "lib_1" := by
  have inside : libRequests.Pairwise fun a b => a.scope ∈ nestedScopes.chain b.scope := by decide
  obtain ⟨name, made, -, -, seen⟩ :=
    ((first_free_names nestedScopes).2 libRequests inside).2 [] _ _ rfl
  have chosen : (chooseAll nestedScopes libRequests).1.map Prod.snd =
      ["lib_1", "lib_2", "lib_3"] := by decide
  obtain rfl : name = "lib_1" := by
    have first : ((chooseAll nestedScopes libRequests).1.map Prod.snd)[([] : List Request).length]? =
        some "lib_1" := by rw [chosen]; rfl
    rw [List.getElem?_map, made] at first
    exact Option.some.inj first
  exact ⟨inside, chosen, seen 1 (by decide)⟩

end ModuleInterop.Scope
