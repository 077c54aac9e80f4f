import EthGateway.Proofs.Catalog.Loading
import EthGateway.Proofs.Pipeline.Run

/-
# EthGateway.Proofs.Pipeline.Repetition -- the same normalization twice

A layer that normalizes arguments, results or both may stand in a stack twice, one directly around
the other: the backend gets the same calls, and the same result is handed out
(`Formatting.repeatable_normalization`). This holds of every catalog and every chain of builtin
normalizers, although a chain may spell a quantity out and read it back.

The notices are not the same, as two layers report an overlong byte value twice. So conversations
are compared without their notices (`Exchange.quiet`): forgetting the notices respects sequencing
and stages (`quiet_bind`, `quiet_through`), and changes nothing that a run sends or comes to
(`run_quiet`). Two layers of a formatting that is settled are then equal to one
(`Layer.quiet_formatting_twice`), and so are the stacks around them.
-/

namespace EthGateway

/-! ## Conversations without their notices -/

namespace Exchange

variable {α β : Type}

/-- The same conversation, with nothing reported. -/
def quiet : Exchange α → Exchange α
  | .done a => .done a
  | .note _ x => x.quiet
  | .send c next => .send c fun a => (next a).quiet

theorem quiet_bind (x : Exchange α) (f : α → Exchange β) :
    (x >>= f).quiet = x.quiet >>= fun a => (f a).quiet := by
  induction x with
  | done a => rfl
  | note n x ih => exact ih
  | send c next ih => exact congrArg (send c) (funext ih)

theorem quiet_through (x : Exchange α) (stage : Layer) :
    (x.through stage).quiet = x.quiet.through fun c => (stage c).quiet := by
  induction x with
  | done a => rfl
  | note n x ih => exact ih
  | send c next ih =>
    rw [through, quiet_bind]
    exact bind_congr ih

theorem quiet_ofNoted (x : Noted α) : (ofNoted x).quiet = .done x.value := by
  unfold ofNoted
  induction x.notices with
  | nil => rfl
  | cons n ns ih => exact ih

/-- What is reported has no influence on the calls and on what they come to. -/
theorem run_quiet (x : Exchange α) (backend : Backend) (earlier : List Call) :
    (x.quiet.run backend earlier).contacts = (x.run backend earlier).contacts ∧
      (x.quiet.run backend earlier).result = (x.run backend earlier).result := by
  induction x generalizing earlier with
  | done a => exact ⟨rfl, rfl⟩
  | note n x ih => exact ih earlier
  | send c next ih =>
    obtain ⟨contacts, result⟩ := ih (backend earlier c).value (earlier ++ [c])
    exact ⟨congrArg (_ :: ·) contacts, result⟩

end Exchange

/-- Two runs with the same calls, the same answers to them and the same result. -/
structure Outcome.SameButNotices {α : Type} (o p : Outcome α) : Prop where
  contacts : o.contacts = p.contacts
  result : o.result = p.result

theorem Exchange.sameButNotices_of_quiet {α : Type} {x y : Exchange α} (h : x.quiet = y.quiet)
    (backend : Backend) (earlier : List Call) :
    (x.run backend earlier).SameButNotices (y.run backend earlier) := by
  have hx := x.run_quiet backend earlier
  have hy := y.run_quiet backend earlier
  rw [h] at hx
  exact ⟨hx.1.symm.trans hy.1, hx.2.symm.trans hy.2⟩

namespace Layer

/-- The same layer, with nothing reported. -/
def quiet (layer : Layer) : Layer := fun c => (layer c).quiet

theorem quiet_around (outer inner : Layer) :
    quiet (around outer inner) = around (quiet outer) (quiet inner) :=
  funext fun c => Exchange.quiet_through (outer c) inner

end Layer

/-! ## Formattings that are settled -/

namespace Formatting

/-- What has been formatted is formatted to itself, in both directions. -/
structure Settled (f : Formatting) : Prop where
  requests : ∀ method params,
    (f.formatRequest method (f.formatRequest method params).value).value =
      (f.formatRequest method params).value
  results : ∀ method v,
    (f.formatResult method (f.formatResult method v).value).value =
      (f.formatResult method v).value

variable {f g : Formatting}

theorem Settled.received (h : f.Settled) (c : Call) : f.received (f.received c) = f.received c :=
  congrArg (Call.mk c.method) (h.requests c.method c.params)

theorem Settled.answered (h : f.Settled) (method : String) (a : Answer) :
    (f.answered method (f.answered method a).value).value = (f.answered method a).value := by
  cases a with
  | error e => rfl
  | ok v => exact congrArg Except.ok (h.results method v)

/-- The arguments as one formatting has them, and the results as another. -/
def bothWays (f g : Formatting) : Formatting := ⟨f.name, f.requests, g.results⟩

theorem Settled.bothWays (hf : f.Settled) (hg : g.Settled) : (f.bothWays g).Settled :=
  ⟨hf.requests, hg.results⟩

end Formatting

namespace Layer

variable {f : Formatting}

theorem quiet_formatting_apply (f : Formatting) (c : Call) :
    quiet (formatting f) c =
      Exchange.ask (f.received c) >>= fun a => .done (f.answered c.method a).value := by
  rw [quiet, formatting_eq, Exchange.quiet_bind, Exchange.quiet_ofNoted, Exchange.done_bind,
    Exchange.quiet_bind]
  exact bind_congr fun a => Exchange.quiet_ofNoted _

/-- Two layers of a formatting that is settled do what one of them does. -/
theorem quiet_formatting_twice (h : f.Settled) :
    quiet (around (formatting f) (formatting f)) = quiet (formatting f) := by
  rw [quiet_around]
  funext c
  rw [around, quiet_formatting_apply, Exchange.through_bind, Exchange.ask_through,
    quiet_formatting_apply, h.received, Exchange.bind_assoc]
  refine bind_congr fun a => ?_
  exact congrArg Exchange.done (h.answered c.method a)

theorem quiet_stack_twice (h : f.Settled) (outers inners : List Layer) :
    quiet (stack (outers ++ formatting f :: formatting f :: inners)) =
      quiet (stack (outers ++ formatting f :: inners)) := by
  have twice : quiet (stack (formatting f :: formatting f :: inners))
      = quiet (stack (formatting f :: inners)) := by
    rw [stack, stack, ← around_assoc, quiet_around, quiet_formatting_twice h, quiet_around]
  rw [stack_append, quiet_around, twice, stack_append, quiet_around]

end Layer

/-! ## Normalization -/

namespace Formatting

/-- A formatting that does no more if it is done twice: neither to arguments and results, nor as two
layers in the place of one, wherever they stand in a stack. -/
structure Repeatable (f : Formatting) : Prop extends Settled f where
  stacked : ∀ (outers inners : List Layer) (c : Call) (backend : Backend) (earlier : List Call),
    ((Layer.stack (outers ++ .formatting f :: .formatting f :: inners) c).run
        backend earlier).SameButNotices
      ((Layer.stack (outers ++ .formatting f :: inners) c).run backend earlier)

theorem Settled.repeatable {f : Formatting} (h : f.Settled) : f.Repeatable where
  toSettled := h
  stacked outers inners c :=
    Exchange.sameButNotices_of_quiet (congrFun (Layer.quiet_stack_twice h outers inners) c)

section Normalization

variable {catalog : Catalog} (distinct : catalog.Distinct) {chain chain' : Chain}

include distinct

theorem settled_ofCatalog (stable : chain.Stable) : (ofCatalog catalog chain).Settled where
  requests method params := congrArg Noted.value
    (formatRequest_formatRequest (distinct method) stable params)
  results _ _ := rfl

theorem settled_ofResults (stable : chain.Stable) : (ofResults catalog chain).Settled where
  requests _ _ := rfl
  results method v := congrArg Noted.value (formatResult_formatResult distinct stable method v)

/-- Normalizing arguments, results, or arguments by one chain and results by another does no more if
it is done twice. -/
theorem repeatable_normalization (builtin : chain ⊆ Normalizer.builtin)
    (builtin' : chain' ⊆ Normalizer.builtin) :
    (ofCatalog catalog chain).Repeatable ∧ (ofResults catalog chain').Repeatable ∧
      ((ofCatalog catalog chain).bothWays (ofResults catalog chain')).Repeatable := by
  have arguments := settled_ofCatalog distinct (Chain.stable_of_builtin builtin)
  have results := settled_ofResults distinct (Chain.stable_of_builtin builtin')
  refine ⟨arguments.repeatable, results.repeatable, ?_⟩
  exact (arguments.bothWays results).repeatable

end Normalization

/-- A chain that reads quantities and spells them out again comes to rest after one pass. -/
theorem repeatable_normalization_call :
    let chain : Chain := [.hexToInt, .bytesToHex, .intToHex]
    let f := ofCatalog Catalog.standard chain
    let once : List Json := [.obj [("data", .str "0xab"), ("value", .str "0xab")]]
    Catalog.standard.Distinct ∧ chain ⊆ Normalizer.builtin ∧ Chain.result ⊆ Normalizer.builtin ∧
      (f.formatRequest "eth_call"
        [.obj [("data", .arr [.ofNat 171]), ("value", .str "0X00aB")]]).value = once ∧
      f.Repeatable ∧ (ofResults Catalog.standard .result).Repeatable ∧
        (f.bothWays (ofResults Catalog.standard .result)).Repeatable := by
  have distinct : Catalog.standard.Distinct := fun _ _ => Catalog.Loadable.distinct (.inl rfl)
  have builtin : [.hexToInt, .bytesToHex, .intToHex] ⊆ Normalizer.builtin := by
    simp [Normalizer.builtin]
  refine ⟨distinct, builtin, Chain.result_subset_builtin, by decide +kernel, ?_⟩
  exact repeatable_normalization distinct builtin Chain.result_subset_builtin

end Formatting

end EthGateway
