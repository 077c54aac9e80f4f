import EthGateway.Pipeline.Layer
import EthGateway.Proofs.Formatter.Notices
import EthGateway.Proofs.Pipeline.Run

/-
# EthGateway.Proofs.Pipeline.Reporting -- what a conversation may report

The notices of a run are of two sorts: those that the conversation has of its own, and those that
the backend has with its answers. `Exchange.Reports` says of a conversation that all its own notices
have a property, whatever the answers are that it gets on the way. It is closed under sequence and
under stages that answer for the next one, like `Exchange.Sends`. The notices without the property
are then the backend's, contact by contact (`filter_notices_run`).

The stages themselves report nothing graver than a warning, and so does a whole stack if the
normalizers in it do not (`Stage.reports_stack`). All the errors in the log are then those that the
backend gave rise to.
-/

namespace EthGateway

/-- A notice that is a warning. -/
def Notice.IsWarning (n : Notice) : Prop := n.level = "WARN"

theorem Notice.IsOverlong.isWarning {n : Notice} (h : n.IsOverlong) : n.IsWarning := by
  obtain ⟨kind, length, rfl⟩ := h
  rfl

namespace Exchange

variable {α β : Type} {P Q : Notice → Prop}

/-- All the notices that the conversation may have of its own have the property. -/
def Reports (P : Notice → Prop) : Exchange α → Prop
  | .done _ => True
  | .note n x => P n ∧ x.Reports P
  | .send _ next => ∀ a, (next a).Reports P

theorem Reports.mono {x : Exchange α} (h : x.Reports P) (imp : ∀ n, P n → Q n) : x.Reports Q := by
  induction x with
  | done a => trivial
  | note n x ih => exact ⟨imp n h.1, ih h.2⟩
  | send c next ih => exact fun a => ih a (h a)

theorem reports_bind {x : Exchange α} {f : α → Exchange β} (first : x.Reports P)
    (next : ∀ a, (f a).Reports P) : (x >>= f).Reports P := by
  induction x with
  | done a => exact next a
  | note n x ih => exact ⟨first.1, ih first.2⟩
  | send c next' ih => exact fun a => ih a (first a)

theorem reports_ofNoted {x : Noted α} (h : x.Reports P) : (ofNoted x).Reports P := by
  unfold ofNoted
  unfold Noted.Reports at h
  generalize x.notices = ns at h
  induction ns with
  | nil => trivial
  | cons n ns ih =>
    obtain ⟨first, rest⟩ := List.forall_mem_cons.1 h
    exact ⟨first, ih rest⟩

theorem reports_through {x : Exchange α} {stage : Layer} (own : x.Reports P)
    (answers : ∀ c, (stage c).Reports P) : (x.through stage).Reports P := by
  induction x with
  | done a => trivial
  | note n x ih => exact ⟨own.1, ih own.2⟩
  | send c next ih => exact reports_bind (answers c) fun a => ih a (own a)

/-- Notices of a sort that a conversation does not report itself are reported by the backend alone,
contact by contact. -/
theorem filter_notices_run {x : Exchange α} {sort : Notice → Bool}
    (own : x.Reports fun n => sort n = false) {backend : Backend}
    {report : Contact → List Notice}
    (given : ∀ earlier c, (backend earlier c).notices = report ⟨c, (backend earlier c).value⟩)
    (earlier : List Call) :
    (x.run backend earlier).notices.filter sort =
      (x.run backend earlier).contacts.flatMap fun k => (report k).filter sort := by
  induction x generalizing earlier with
  | done a => rfl
  | note n x ih =>
    rw [run, List.filter_cons_of_neg (by simp [own.1])]
    exact ih own.2 earlier
  | send c next ih =>
    rw [run, List.filter_append, List.flatMap_cons, given, ih _ (own _)]

end Exchange

/-! ## The stages -/

theorem Attempt.reports_bind {α β : Type} {P : Notice → Prop} {x : Attempt α} {f : α → Attempt β}
    (first : x.run.Reports P) (next : ∀ a, (f a).run.Reports P) : (x >>= f).run.Reports P := by
  rw [ExceptT.run_bind]
  refine Exchange.reports_bind first ?_
  intro r
  cases r with
  | ok a => exact next a
  | error e => trivial

namespace DefaultFields

open Attempt (reports_bind)

variable {P : Notice → Prop}

theorem reports_ask (method : String) (params : List Json) : (ask method params).run.Reports P :=
  fun _ => trivial

theorem reports_guessSender : guessSender.run.Reports P := by
  refine reports_bind (reports_ask _ _) ?_
  intro coinbase
  split
  · exact reports_bind (reports_ask _ _) fun accounts => trivial
  · trivial

theorem reports_fillSender (t : Record Json) : (fillSender t).run.Reports P := by
  unfold fillSender
  split
  · exact reports_bind reports_guessSender fun sender => trivial
  · trivial

theorem reports_fillGas (policy : GasPolicy) (method : String) (t : Record Json) :
    (fillGas policy method t).run.Reports P := by
  unfold fillGas
  split
  · refine reports_bind (reports_bind (reports_ask _ _) ?_) fun gas => trivial
    intro estimate
    trivial
  · trivial

end DefaultFields

namespace Layer

open Attempt DefaultFields in
/-- Default fields have nothing to report. -/
theorem reports_defaultFields (P : Notice → Prop) (policy : GasPolicy) (c : Call) :
    (defaultFields policy c).Reports P := by
  unfold defaultFields
  split
  · split
    · refine reports_bind (reports_bind (reports_fillSender _) ?_) ?_
      · intro t
        exact reports_fillGas policy c.method t
      · intro filled
        exact reports_ask _ _
    · exact fun _ => trivial
  · exact fun _ => trivial

theorem reports_deprecation (aliases : List Alias) (c : Call) :
    (deprecation aliases c).Reports Notice.IsWarning := by
  unfold deprecation
  split
  · exact ⟨rfl, fun _ => trivial⟩
  · exact fun _ => trivial

theorem reports_formatting {P : Notice → Prop} {f : Formatting} (h : f.Reports P) (c : Call) :
    (formatting f c).Reports P := by
  rw [formatting_eq]
  refine Exchange.reports_bind (Exchange.reports_ofNoted ?_) ?_
  · exact Formatting.reports_formatRequest h c.method c.params
  intro params a
  cases a with
  | ok v => exact Exchange.reports_ofNoted ((Formatting.reports_formatResult h c.method v).map _)
  | error e => trivial

end Layer

namespace Stage

theorem reports_layer {s : Stage} (h : ∀ f, s = .formatting f → f.Reports Notice.IsWarning)
    (c : Call) : (s.layer c).Reports Notice.IsWarning := by
  cases s with
  | deprecation aliases => exact Layer.reports_deprecation aliases c
  | defaultFields policy => exact Layer.reports_defaultFields _ policy c
  | formatting f => exact Layer.reports_formatting (h f rfl) c

/-- Stacks of stages report warnings and nothing graver, if their normalizers do. -/
theorem reports_stack {stages : List Stage}
    (h : ∀ f, .formatting f ∈ stages → f.Reports Notice.IsWarning) (c : Call) :
    (Layer.stack (stages.map Stage.layer) c).Reports Notice.IsWarning := by
  induction stages generalizing c with
  | nil => exact fun _ => trivial
  | cons s inners ih =>
    refine Exchange.reports_through (reports_layer (fun f own => h f ?_) c) ?_
    · exact own ▸ List.mem_cons_self
    · exact ih fun f place => h f (List.mem_cons_of_mem s place)

end Stage

end EthGateway
