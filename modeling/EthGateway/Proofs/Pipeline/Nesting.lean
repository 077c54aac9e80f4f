import EthGateway.Proofs.Pipeline.Run

/-
# EthGateway.Proofs.Pipeline.Nesting -- stacks behind stacks

A stack of layers in front of a backend answers calls as a backend does, so it may stand behind
another stack in the place of the backend. What the two of them do then, request after request, is
what the one stack of all their layers does: the same answers, the same notices, and the same calls
to the backend (`Layer.Nested`). What this rests on is a law of two layers: the calls that the outer
one makes are those that the inner one is given (`callsFor_around`, `seenThrough_around`).

In a stack of formattings the two ways of a call mirror each other: arguments are formatted from the
outside to the inside, results from the inside to the outside. `Layer.nests` has all of this.
-/

namespace EthGateway

namespace Layer

/-! ## Two layers -/

section Around

variable (outer inner : Layer) (backend : Backend) (before : List Call)

/-- A layer inside another is given the calls that the outer one makes; `had` are those that it was
given before. -/
theorem callsFor_around (had sent : List Call) :
    (around outer inner).callsFor backend (before ++ inner.callsFor backend before had) sent =
      inner.callsFor backend (before ++ inner.callsFor backend before had)
        (outer.callsFor (backend.seenThrough inner before) had sent) := by
  induction sent generalizing had with
  | nil => rfl
  | cons c sent ih =>
    obtain ⟨calls, -, -⟩ := Exchange.run_through inner backend before had (outer c)
    have rest := ih (had ++ ((outer c).run (backend.seenThrough inner before) had).calls)
    rw [callsFor_append, ← calls, ← List.append_assoc] at rest
    rw [callsFor, callsFor, callsFor_append, ← calls]
    exact congrArg (_ ++ ·) rest

/-- A backend behind two layers is the backend behind the inner one, behind the outer one. -/
theorem seenThrough_around :
    backend.seenThrough (around outer inner) before =
      (backend.seenThrough inner before).seenThrough outer [] := by
  funext sent c
  have made := callsFor_around outer inner backend before [] sent
  rw [callsFor, List.append_nil] at made
  obtain ⟨-, notices, result⟩ := Exchange.run_through inner backend before
    (outer.callsFor (backend.seenThrough inner before) [] sent) (outer c)
  rw [Backend.seenThrough, made, Backend.seenThrough]
  exact Noted.ext result notices

end Around

/-! ## Stacks -/

/-- A stack with another one in the place of its backend is no other than the stack of both. -/
structure Nested (outers inners : List Layer) (backend : Backend) (before : List Call) : Prop where
  /-- Every request is answered alike and with the same notices, whatever was requested before. -/
  answers : (backend.seenThrough (stack inners) before).seenThrough (stack outers) [] =
    backend.seenThrough (stack (outers ++ inners)) before
  /-- Any requests, one after the other, make the same calls to the backend. -/
  calls : ∀ sent, (stack inners).callsFor backend before
      ((stack outers).callsFor (backend.seenThrough (stack inners) before) [] sent) =
    (stack (outers ++ inners)).callsFor backend before sent

theorem nested (outers inners : List Layer) (backend : Backend) (before : List Call) :
    Nested outers inners backend before := by
  constructor
  · rw [stack_append, seenThrough_around]
  · intro sent
    have made := callsFor_around (stack outers) (stack inners) backend before [] sent
    rw [callsFor, List.append_nil] at made
    rw [stack_append, made]

/-- A layer that is added under a condition is there, or it might as well not be in the list. -/
theorem stack_onlyIf (enabled : Bool) (outers inners : List Layer) (layer : Layer) :
    stack (outers ++ (onlyIf enabled layer ++ inners)) =
      if enabled then stack (outers ++ layer :: inners) else stack (outers ++ inners) := by
  cases enabled <;> rfl

/-- What one request to a stack of formattings does. -/
structure Formatted (fs : List Formatting) (c : Call) (backend : Backend) (before : List Call)
    (o : Outcome Answer) : Prop where
  /-- One call arrives, under the name of the request and with its arguments formatted by the
  outermost first. -/
  contacts : let arrived : Call := ⟨c.method, Formatting.formatRequests fs c.method c.params⟩
    o.contacts = [⟨arrived, (backend before arrived).value⟩]
  /-- A result is handed out formatted by the innermost first. -/
  returned : ∀ k ∈ o.contacts, ∀ r, k.answer = .ok r →
    o.result = .ok (Formatting.formatResults fs c.method r)
  /-- An error is handed out as it is. -/
  failed : ∀ k ∈ o.contacts, ∀ e, k.answer = .error e → o.result = .error e

theorem formatted (fs : List Formatting) (c : Call) (backend : Backend) (before : List Call) :
    Formatted fs c backend before ((stack (fs.map formatting) c).run backend before) := by
  obtain ⟨contacts, result⟩ := run_stack_formatting fs c backend before
  generalize (stack (fs.map formatting) c).run backend before = o at *
  have handed : ∀ k ∈ o.contacts,
      o.result = k.answer.map (Formatting.formatResults fs c.method) := by
    intro k hk
    rw [contacts] at hk
    obtain rfl := List.mem_singleton.1 hk
    exact result
  refine ⟨contacts, ?_, ?_⟩
  · intro k hk r answered
    rw [handed k hk, answered]
    rfl
  · intro k hk e answered
    rw [handed k hk, answered]
    rfl

/-- Stacks nest: in the place of a backend, under a condition, and both ways of a call. -/
theorem nests (outers inners : List Layer) (fs : List Formatting) (backend : Backend)
    (before : List Call) :
    Nested outers inners backend before ∧
      (∀ enabled layer, stack (outers ++ (onlyIf enabled layer ++ inners)) =
        if enabled then stack (outers ++ layer :: inners) else stack (outers ++ inners)) ∧
      ∀ c, Formatted fs c backend before ((stack (fs.map formatting) c).run backend before) := by
  refine ⟨nested outers inners backend before, ?_, ?_⟩
  · intro enabled layer
    exact stack_onlyIf enabled outers inners layer
  · intro c
    exact formatted fs c backend before

/-- The first layer of a stack has the first say in the arguments and the last in the result. -/
example :
    let o := (stack [labelled "a", labelled "b"] ⟨"m", []⟩).run (fun _ _ => pure (.ok .null)) []
    o.calls = [⟨"m", [.str "a", .str "b"]⟩] ∧
      o.result.toOption = some (.arr [.str "a", .arr [.str "b", .null]]) := by
  decide

end Layer

end EthGateway
