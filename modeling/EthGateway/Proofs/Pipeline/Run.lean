import EthGateway.Pipeline.Layer
import Mathlib.Data.List.Forall2

/-
# EthGateway.Proofs.Pipeline.Run -- what a run does, piece by piece

`Exchange.run` threads the calls so far through a conversation, so a run of two conversations in
sequence is a run of the first and then one of the second, from the calls that the first has added
(`run_bind`). From this law each layer gets an equation for what it does in front of another layer:
`around_deprecation` and `run_around_formatting` here, and those of the default fields in
`EthGateway.Proofs.Pipeline.Filling`. Later modules reason with these and open no layer.

Seen from what is in front of it, a layer in front of a backend is a backend again
(`Backend.seenThrough`): a conversation reports the same and comes to the same, and the calls that
arrive are those that the layer makes for the calls that were sent (`run_through`). One call arrives
for a call to a stack of formattings (`run_stack_formatting`), and the backend seen through one is
`Backend.behind`: the calls that arrive are the calls that were sent, each with its arguments
formatted (`run_through_formatting`).

A conversation behind which formattings stand has the contacts that it would have with a backend
that speaks as the formattings let it. Each of these is carried out by one contact of the backend
itself, in the same order (`carried_run`): the arguments of the call are formatted on the way there,
and a result on the way back (`Carried`). What is known of the contacts on one side is so known of
those on the other: of each of them (`exists_related_of_mem`), and of the last
(`exists_related_of_concat`).
-/

namespace EthGateway

namespace Outcome

variable {α β : Type}

/-- What a run did, and then what another one did that went on from it. -/
def followedBy (o : Outcome α) (p : Outcome β) : Outcome β :=
  ⟨o.contacts ++ p.contacts, o.notices ++ p.notices, p.result⟩

@[simp] theorem contacts_followedBy (o : Outcome α) (p : Outcome β) :
    (o.followedBy p).contacts = o.contacts ++ p.contacts := rfl

@[simp] theorem result_followedBy (o : Outcome α) (p : Outcome β) :
    (o.followedBy p).result = p.result := rfl

@[simp] theorem calls_followedBy (o : Outcome α) (p : Outcome β) :
    (o.followedBy p).calls = o.calls ++ p.calls := by
  simp [calls]

theorem followedBy_assoc {γ : Type} (o : Outcome α) (p : Outcome β) (q : Outcome γ) :
    (o.followedBy p).followedBy q = o.followedBy (p.followedBy q) := by
  simp [followedBy]

end Outcome

/-! ## Runs in sequence -/

namespace Exchange

variable {α β : Type} (backend : Backend) (earlier : List Call)

@[simp] theorem run_done (a : α) : (Exchange.done a).run backend earlier = ⟨[], [], a⟩ := rfl

theorem run_bind (x : Exchange α) (f : α → Exchange β) :
    (x >>= f).run backend earlier =
      (x.run backend earlier).followedBy
        ((f (x.run backend earlier).result).run backend
          (earlier ++ (x.run backend earlier).calls)) := by
  induction x generalizing earlier with
  | done a => simp [Outcome.followedBy, Outcome.calls]
  | note n x ih =>
    rw [note_bind, run, ih]
    rfl
  | send c next ih =>
    rw [send_bind, run, ih]
    simp [run, Outcome.followedBy, Outcome.calls]

theorem map_ofNoted (g : α → β) (x : Noted α) : g <$> ofNoted x = ofNoted (g <$> x) := by
  rw [ofNoted, ofNoted, Noted.notices_map]
  generalize x.notices = ns
  induction ns with
  | nil => rfl
  | cons n ns ih => exact congrArg (note n) ih

/-- A conversation goes on alike from values that give rise to the same notices. -/
theorem ofNoted_bind_congr {x y : Noted α} {f : α → Exchange β} (notices : x.notices = y.notices)
    (next : f x.value = f y.value) : (ofNoted x >>= f) = (ofNoted y >>= f) := by
  unfold ofNoted
  rw [notices]
  generalize y.notices = ns
  induction ns with
  | nil => exact next
  | cons n ns ih => exact congrArg (note n) ih

theorem ofNoted_through (x : Noted α) (stage : Layer) :
    (ofNoted x).through stage = ofNoted x := by
  unfold ofNoted
  generalize x.notices = ns
  induction ns with
  | nil => rfl
  | cons n ns ih => simpa only [List.foldr_cons, through] using congrArg (note n) ih

theorem run_ofNoted (x : Noted α) :
    (ofNoted x).run backend earlier = ⟨[], x.notices, x.value⟩ := by
  unfold ofNoted
  generalize x.notices = ns
  induction ns with
  | nil => rfl
  | cons n ns ih => rw [List.foldr_cons, run, ih]

/-- The answer of a contact is what the backend says after the calls before it. -/
theorem answer_of_contacts {x : Exchange α} {before after : List Contact} {k : Contact}
    (contacts : (x.run backend earlier).contacts = before ++ k :: after) :
    k.answer = (backend (earlier ++ before.map Contact.call) k.call).value := by
  induction x generalizing earlier before with
  | done a => simp at contacts
  | note n x ih => exact ih earlier contacts
  | send c next ih =>
    cases before with
    | nil =>
      obtain ⟨rfl, -⟩ := List.cons.inj contacts
      rw [List.map_nil, List.append_nil]
    | cons b before =>
      obtain ⟨rfl, rest⟩ := List.cons.inj contacts
      rw [ih _ _ rest, List.map_cons, List.append_assoc]
      rfl

end Exchange

/-! ## A backend behind a layer -/

/-- The calls that a layer makes for calls that it is given one after the other. -/
def Layer.callsFor (layer : Layer) (backend : Backend) :
    (earlier : List Call) → List Call → List Call
  | _, [] => []
  | earlier, c :: cs =>
    let calls := ((layer c).run backend earlier).calls
    calls ++ callsFor layer backend (earlier ++ calls) cs

theorem Layer.callsFor_singleton (layer : Layer) (backend : Backend) (earlier : List Call)
    (c : Call) : layer.callsFor backend earlier [c] = ((layer c).run backend earlier).calls :=
  List.append_nil _

theorem Layer.callsFor_append (layer : Layer) (backend : Backend) (earlier cs ds : List Call) :
    layer.callsFor backend earlier (cs ++ ds) =
      layer.callsFor backend earlier cs ++
        layer.callsFor backend (earlier ++ layer.callsFor backend earlier cs) ds := by
  induction cs generalizing earlier with
  | nil => simp [callsFor]
  | cons c cs ih => simp [callsFor, ih]

/-- A backend as it looks through a layer in front of it: `sent` are the calls that the layer was
given, and `before` those that the backend has had from elsewhere. -/
def Backend.seenThrough (layer : Layer) (backend : Backend) (before : List Call) : Backend :=
  fun sent c =>
    let o := (layer c).run backend (before ++ layer.callsFor backend before sent)
    ⟨o.result, o.notices⟩

/-- A conversation cannot tell a layer in front of a backend from a backend. -/
theorem Exchange.run_through {α : Type} (layer : Layer) (backend : Backend)
    (before sent : List Call) (x : Exchange α) :
    let had := before ++ layer.callsFor backend before sent
    let o := (x.through layer).run backend had
    let seen := x.run (backend.seenThrough layer before) sent
    o.calls = layer.callsFor backend had seen.calls ∧ o.notices = seen.notices ∧
      o.result = seen.result := by
  induction x generalizing sent with
  | done a => exact ⟨rfl, rfl, rfl⟩
  | note n x ih =>
    obtain ⟨calls, notices, result⟩ := ih sent
    exact ⟨calls, congrArg (n :: ·) notices, result⟩
  | send c next ih =>
    -- The rest runs after the calls that the layer has made for this one.
    have rest := ih (backend.seenThrough layer before sent c).value (sent ++ [c])
    rw [Layer.callsFor_append, Layer.callsFor_singleton, ← List.append_assoc] at rest
    obtain ⟨calls, notices, result⟩ := rest
    dsimp only
    rw [through, run_bind]
    refine ⟨?_, ?_, result⟩
    · rw [Outcome.calls_followedBy]
      exact congrArg (_ ++ ·) calls
    · exact congrArg (_ ++ ·) notices

/-! ## Deprecated names in front of a layer -/

namespace Alias

theorem resolve?_name {a : Alias} (h : a ∈ standard) : resolve? standard a.name = some a := by
  revert a
  decide

/-- No method that a deprecated name stands for is a deprecated name. -/
theorem resolve?_method {a : Alias} (h : a ∈ standard) : resolve? standard a.method = none := by
  revert a
  decide

end Alias

namespace Layer

variable (inner : Layer)

theorem around_deprecation (aliases : List Alias) (c : Call) :
    around (deprecation aliases) inner c =
      match Alias.resolve? aliases c.method with
      | some a => .note a.notice (inner ⟨a.method, c.params⟩)
      | none => inner c := by
  unfold around deprecation
  cases Alias.resolve? aliases c.method with
  | none => exact Exchange.ask_through inner c
  | some a => exact congrArg (Exchange.note a.notice) (Exchange.ask_through inner _)

/-- A call under a deprecated name does what it does under the name of its method, after the
notice. -/
theorem run_around_deprecation {aliases : List Alias} {a : Alias} {name : String}
    (found : Alias.resolve? aliases name = some a)
    (direct : Alias.resolve? aliases a.method = none) (params : List Json) (backend : Backend)
    (earlier : List Call) :
    (around (deprecation aliases) inner ⟨name, params⟩).run backend earlier =
      let o := (around (deprecation aliases) inner ⟨a.method, params⟩).run backend earlier
      ⟨o.contacts, a.notice :: o.notices, o.result⟩ := by
  rw [around_deprecation, around_deprecation, found, direct]
  rfl

end Layer

/-! ## Formatting in front of a layer and in front of the backend -/

namespace Formatting

/-- A call with its arguments formatted. -/
def received (f : Formatting) (c : Call) : Call :=
  ⟨c.method, (f.formatRequest c.method c.params).value⟩

/-- Formatters for the arguments at their places format the arguments at their places. -/
theorem params_received {f : Formatting} {method : String} {inners : List Formatter}
    (found : Record.get? f.requests method = some (.args inners)) (params : List Json) :
    (f.received ⟨method, params⟩).params = (Formatter.applyArgs inners params).value := by
  rw [received, formatRequest, found]
  rfl

/-- An answer with its value formatted; an error stays as it is. -/
def answered (f : Formatting) (method : String) : Answer → Noted Answer
  | .ok v => .ok <$> f.formatResult method v
  | .error e => pure (.error e)

theorem value_answered (f : Formatting) (method : String) (a : Answer) :
    (f.answered method a).value = a.map fun v => (f.formatResult method v).value := by
  cases a <;> rfl

/-- A catalog formats arguments only. -/
theorem answered_ofCatalog (catalog : Catalog) (chain : Chain) (method : String) (a : Answer) :
    (ofCatalog catalog chain).answered method a = pure a := by
  cases a <;> rfl

/-- Arguments on their way through formattings, the outermost first. -/
def formatRequests (fs : List Formatting) (method : String) (params : List Json) : List Json :=
  fs.foldl (fun params f => (f.formatRequest method params).value) params

/-- A result on its way back through formattings, the innermost first. -/
def formatResults (fs : List Formatting) (method : String) (result : Json) : Json :=
  fs.foldr (fun f v => (f.formatResult method v).value) result

end Formatting

/-- A backend as it looks from in front of a formatting layer: `sent` are the calls that the layer
was given, and `before` those that the backend has had from elsewhere. -/
def Backend.behind (f : Formatting) (backend : Backend) (before : List Call) : Backend :=
  fun sent c =>
    let answer := backend (before ++ sent.map f.received) (f.received c)
    let formatted := f.answered c.method answer.value
    ⟨formatted.value, (f.formatRequest c.method c.params).notices ++ answer.notices
      ++ formatted.notices⟩

namespace Layer

variable (f : Formatting)

theorem formatting_eq (c : Call) :
    formatting f c =
      (Exchange.ofNoted (f.formatRequest c.method c.params) >>= fun params =>
        Exchange.ask ⟨c.method, params⟩ >>= fun a =>
          Exchange.ofNoted (f.answered c.method a)) := by
  unfold formatting
  refine bind_congr fun params => bind_congr fun a => ?_
  cases a with
  | error e => rfl
  | ok v => exact Exchange.map_ofNoted Except.ok (f.formatResult c.method v)

theorem around_formatting (inner : Layer) (c : Call) :
    around (formatting f) inner c =
      (Exchange.ofNoted (f.formatRequest c.method c.params) >>= fun params =>
        inner ⟨c.method, params⟩ >>= fun a => Exchange.ofNoted (f.answered c.method a)) := by
  unfold around
  rw [formatting_eq, Exchange.through_bind, Exchange.ofNoted_through]
  refine bind_congr fun params => ?_
  rw [Exchange.through_bind, Exchange.ask_through]
  exact bind_congr fun a => Exchange.ofNoted_through _ inner

/-- One call goes in with formatted arguments, and what comes of it is formatted. -/
theorem run_around_formatting (inner : Layer) (c : Call) (backend : Backend)
    (earlier : List Call) :
    (around (formatting f) inner c).run backend earlier =
      let o := (inner (f.received c)).run backend earlier
      let formatted := f.answered c.method o.result
      ⟨o.contacts, (f.formatRequest c.method c.params).notices ++ o.notices ++ formatted.notices,
        formatted.value⟩ := by
  rw [around_formatting, Exchange.run_bind, Exchange.run_ofNoted, Exchange.run_bind,
    Exchange.run_ofNoted]
  simp [Outcome.followedBy, Outcome.calls, Formatting.received]

open Formatting in
/-- Formattings around one another send one call, with its arguments formatted from the outside to
the inside, and give its result back formatted from the inside to the outside. -/
theorem run_stack_formatting (fs : List Formatting) (c : Call) (backend : Backend)
    (earlier : List Call) :
    let o := (stack (fs.map formatting) c).run backend earlier
    let arrived : Call := ⟨c.method, formatRequests fs c.method c.params⟩
    let answer := (backend earlier arrived).value
    o.contacts = [⟨arrived, answer⟩] ∧ o.result = answer.map (formatResults fs c.method) := by
  induction fs generalizing c with
  | nil =>
    have asIs : ∀ a : Answer, a = a.map (formatResults [] c.method) := by
      intro a
      cases a <;> rfl
    exact ⟨rfl, asIs _⟩
  | cons f fs ih =>
    obtain ⟨contacts, result⟩ := ih (f.received c)
    have outermost : ∀ a : Answer,
        (a.map (formatResults fs c.method)).map (fun v => (f.formatResult c.method v).value)
          = a.map (formatResults (f :: fs) c.method) := by
      intro a
      cases a <;> rfl
    dsimp only
    rw [List.map_cons, stack, run_around_formatting]
    refine ⟨contacts, ?_⟩
    dsimp only
    rw [value_answered, result]
    exact outermost _

/-- Formattings around one another make one contact, under the name that the call came with. -/
theorem contacts_stack_formatting (fs : List Formatting) (c : Call) (backend : Backend)
    (earlier : List Call) :
    ∃ k, ((stack (fs.map formatting) c).run backend earlier).contacts = [k] ∧
      k.call.method = c.method :=
  ⟨_, (run_stack_formatting fs c backend earlier).1, rfl⟩

/-- In front of the backend the layer makes one contact, and what it hands out is what
`Backend.behind` says. -/
theorem run_formatting (c : Call) (backend : Backend) (before sent : List Call) :
    (formatting f c).run backend (before ++ sent.map f.received) =
      ⟨[⟨f.received c, (backend (before ++ sent.map f.received) (f.received c)).value⟩],
        (backend.behind f before sent c).notices, (backend.behind f before sent c).value⟩ := by
  have around := run_around_formatting f forward c backend (before ++ sent.map f.received)
  rw [around_forward] at around
  rw [around]
  simp [forward, Exchange.ask, Exchange.run, Backend.behind]

theorem callsFor_formatting (backend : Backend) (earlier sent : List Call) :
    (formatting f).callsFor backend earlier sent = sent.map f.received := by
  induction sent generalizing earlier with
  | nil => rfl
  | cons c sent ih =>
    have one := run_formatting f c backend earlier []
    rw [List.map_nil, List.append_nil] at one
    rw [callsFor, ih, one]
    rfl

theorem seenThrough_formatting (backend : Backend) (before : List Call) :
    backend.seenThrough (formatting f) before = backend.behind f before := by
  funext sent c
  rw [Backend.seenThrough, callsFor_formatting, run_formatting]

/-- The layers in front of the innermost formatting cannot tell it from a backend. -/
theorem run_through_formatting {α : Type} (backend : Backend) (before sent : List Call)
    (x : Exchange α) :
    let o := (x.through (formatting f)).run backend (before ++ sent.map f.received)
    let seen := x.run (backend.behind f before) sent
    o.calls = seen.calls.map f.received ∧ o.notices = seen.notices ∧ o.result = seen.result := by
  have law := Exchange.run_through (formatting f) backend before sent x
  dsimp only at law
  rw [seenThrough_formatting, callsFor_formatting, callsFor_formatting] at law
  exact law

end Layer

/-! ## Contacts in front of formattings and behind them -/

section Lists

variable {α β : Type} {R : α → β → Prop}

theorem exists_related_of_mem {as : List α} {bs : List β} (h : List.Forall₂ R as bs) {a : α}
    (ha : a ∈ as) : ∃ b ∈ bs, R a b := by
  induction h with
  | nil => cases ha
  | @cons x y xs ys first _ ih =>
    rcases List.mem_cons.1 ha with rfl | ha
    · exact ⟨y, List.mem_cons_self, first⟩
    · obtain ⟨b, hb, rel⟩ := ih ha
      exact ⟨b, List.mem_cons_of_mem _ hb, rel⟩

theorem exists_related_of_concat {as : List α} {a : α} {bs : List β}
    (h : List.Forall₂ R (as ++ [a]) bs) :
    ∃ bs' b, bs = bs' ++ [b] ∧ List.Forall₂ R as bs' ∧ R a b := by
  rw [← List.forall₂_reverse_iff, List.reverse_append, List.reverse_singleton,
    List.singleton_append, List.forall₂_cons_left_iff] at h
  obtain ⟨b, bs', last, others, reversed⟩ := h
  refine ⟨bs'.reverse, b, ?_, ?_, last⟩
  · rw [← List.reverse_cons, ← reversed, List.reverse_reverse]
  · rwa [← List.forall₂_reverse_iff, List.reverse_reverse]

end Lists

/-- In front of a layer that makes one contact for a call there are the same contacts as behind it,
up to what the layer does with each of them. -/
theorem Exchange.forall₂_contacts_through {α : Type} {layer : Layer} {backend : Backend}
    {R : Contact → Contact → Prop}
    (one : ∀ c earlier, ∃ k, ((layer c).run backend earlier).contacts = [k] ∧
      R ⟨c, ((layer c).run backend earlier).result⟩ k)
    (before sent : List Call) (x : Exchange α) :
    List.Forall₂ R (x.run (backend.seenThrough layer before) sent).contacts
      ((x.through layer).run backend (before ++ layer.callsFor backend before sent)).contacts := by
  induction x generalizing sent with
  | done a => exact .nil
  | note n x ih => exact ih sent
  | send c next ih =>
    -- The rest runs after the one call that the layer has made for this one.
    have rest := ih (backend.seenThrough layer before sent c).value (sent ++ [c])
    rw [Layer.callsFor_append, Layer.callsFor_singleton, ← List.append_assoc] at rest
    obtain ⟨k, contacts, rel⟩ := one c (before ++ layer.callsFor backend before sent)
    rw [through, run_bind, Outcome.contacts_followedBy, contacts]
    exact .cons rel rest

namespace Formatting

/-- A contact in front of formattings, and the contact behind them by which it is carried out. -/
structure Carried (fs : List Formatting) (k arrived : Contact) : Prop where
  call : arrived.call = ⟨k.call.method, formatRequests fs k.call.method k.call.params⟩
  answer : k.answer = arrived.answer.map (formatResults fs k.call.method)

theorem Carried.method {fs : List Formatting} {k arrived : Contact} (h : Carried fs k arrived) :
    arrived.call.method = k.call.method := by
  rw [h.call]

/-- Each contact of a conversation with formattings behind it is carried out by one of the
backend. -/
theorem carried_run {α : Type} (fs : List Formatting) (x : Exchange α) (backend : Backend)
    (earlier : List Call) :
    let stack := Layer.stack (fs.map Layer.formatting)
    List.Forall₂ (Carried fs) (x.run (backend.seenThrough stack earlier) []).contacts
      ((x.through stack).run backend earlier).contacts := by
  have one : ∀ (c : Call) (earlier : List Call),
      let o := (Layer.stack (fs.map Layer.formatting) c).run backend earlier
      ∃ k, o.contacts = [k] ∧ Carried fs ⟨c, o.result⟩ k := by
    intro c earlier
    obtain ⟨contacts, result⟩ := Layer.run_stack_formatting fs c backend earlier
    exact ⟨_, contacts, rfl, result⟩
  have whole := Exchange.forall₂_contacts_through one earlier [] x
  rwa [Layer.callsFor, List.append_nil] at whole

end Formatting

end EthGateway
