import EthGateway.Proofs.Pipeline.Filling

/-
# EthGateway.Proofs.Pipeline.Transmission -- how a transaction is filled and sent

A transaction is sent in three steps, each of which may be the last: a search for its sender, a
search for its gas limit, and the call itself. `SenderSearch`, `LimitSearch` and `Transmission` list
the ways in which they may go, with the calls that are made, the answers to them and what comes of
it. Whatever the backend answers, and whatever it was asked before, a run goes one of these ways
(`transmission_run`); so what is to be said of default fields is said by cases of them.

What a search puts into the transaction is then read off the contacts alone: the sender is what the
contacts begin by finding (`WithSender`), and the gas limit is made of the estimate that comes just
before the call (`WithLimit`). A layer in front of a backend is a backend as well
(`Backend.seenThrough`), so the backend here may be any next stage.
-/

namespace EthGateway.DefaultFields

open Attempt (against orStop)

/-! ## The ways in which it may go -/

/-- The contacts of a search for the sender of a transaction, and what it comes to. -/
inductive SenderSearch (t : Record Json) :
    List Contact → Except RpcError (Record Json) → Prop where
  | given (present : isMissing t "from" = false) : SenderSearch t [] (.ok t)
  | refused (missing : isMissing t "from" = true) (e : RpcError) :
      SenderSearch t [⟨⟨"eth_coinbase", []⟩, .error e⟩] (.error e)
  | coinbase (missing : isMissing t "from" = true) {v : Json} (account : v ≠ .null) :
      SenderSearch t [⟨⟨"eth_coinbase", []⟩, .ok v⟩] (.ok (Record.insert t "from" v))
  | noAccounts (missing : isMissing t "from" = true) (e : RpcError) :
      SenderSearch t [⟨⟨"eth_coinbase", []⟩, .ok .null⟩, ⟨⟨"eth_accounts", []⟩, .error e⟩]
        (.error e)
  | accounts (missing : isMissing t "from" = true) (v : Json) :
      SenderSearch t [⟨⟨"eth_coinbase", []⟩, .ok .null⟩, ⟨⟨"eth_accounts", []⟩, .ok v⟩]
        (.ok (Record.insert t "from" (firstItem v)))

/-- The contacts of a search for the gas limit of a transaction, and what it comes to. -/
inductive LimitSearch (policy : GasPolicy) (method : String) (t : Record Json) :
    List Contact → Except RpcError (Record Json) → Prop where
  | given (present : ¬ (method ∈ gasMethods ∧ isMissing t "gas" = true)) :
      LimitSearch policy method t [] (.ok t)
  | refused (limited : method ∈ gasMethods) (missing : isMissing t "gas" = true) (e : RpcError) :
      LimitSearch policy method t [⟨⟨"eth_estimateGas", [.obj t]⟩, .error e⟩] (.error e)
  | noQuantity (limited : method ∈ gasMethods) (missing : isMissing t "gas" = true) {v : Json}
      (useless : Quantity.ofJson? v = none) :
      LimitSearch policy method t [⟨⟨"eth_estimateGas", [.obj t]⟩, .ok v⟩]
        (.error (.invalidQuantity ("eth_estimateGas returned " ++ v.compress)))
  | quantity (limited : method ∈ gasMethods) (missing : isMissing t "gas" = true) {v : Json}
      {q : Quantity} (estimate : Quantity.ofJson? v = some q) :
      LimitSearch policy method t [⟨⟨"eth_estimateGas", [.obj t]⟩, .ok v⟩]
        (.ok (Record.insert t "gas" (.str (policy.limit q).encode)))

/-- The contacts that are made for a transaction, and the answer to its call: both searches, and
then the call itself, if it comes to that. -/
inductive Transmission (policy : GasPolicy) (method : String) (t : Record Json)
    (rest : List Json) : List Contact → Answer → Prop where
  | noSender {ks : List Contact} {e : RpcError} (searched : SenderSearch t ks (.error e)) :
      Transmission policy method t rest ks (.error e)
  | noLimit {ks ls : List Contact} {u : Record Json} {e : RpcError}
      (searched : SenderSearch t ks (.ok u))
      (limited : LimitSearch policy method u ls (.error e)) :
      Transmission policy method t rest (ks ++ ls) (.error e)
  | sent {ks ls : List Contact} {u w : Record Json} (searched : SenderSearch t ks (.ok u))
      (limited : LimitSearch policy method u ls (.ok w)) (a : Answer) :
      Transmission policy method t rest (ks ++ (ls ++ [⟨resend method rest w, a⟩])) a

/-! ## Every run goes one of these ways -/

section Run

variable (backend : Backend) (earlier : List Call)

/-- A call, and what follows from its answer. -/
theorem run_forward_orStop {α : Type} (c : Call) (f : Json → Exchange (Except RpcError α)) :
    (Layer.forward c >>= orStop f).run backend earlier =
      let a := (backend earlier c).value
      let o := (orStop f a).run backend (earlier ++ [c])
      ⟨⟨c, a⟩ :: o.contacts, (backend earlier c).notices ++ o.notices, o.result⟩ := rfl

theorem senderSearch_run (t : Record Json) :
    let o := (against Layer.forward (fillSender t)).run backend earlier
    SenderSearch t o.contacts o.result := by
  unfold fillSender
  cases missing : isMissing t "from" with
  | false => exact .given missing
  | true =>
    rw [if_pos rfl, Attempt.against_bind, against_guessSender, Attempt.bind_orStop_orStop,
      run_forward_orStop]
    dsimp only
    cases (backend earlier ⟨"eth_coinbase", []⟩).value with
    | error e => exact .refused missing e
    | ok coinbase =>
      rw [orStop]
      split
      · next null =>
        obtain rfl : coinbase = .null := by cases coinbase <;> first | rfl | cases null
        rw [Attempt.bind_orStop_orStop, run_forward_orStop]
        dsimp only
        cases (backend _ ⟨"eth_accounts", []⟩).value with
        | error e => exact .noAccounts missing e
        | ok accounts => exact .accounts missing accounts
      · next notNull =>
        refine .coinbase missing ?_
        rintro rfl
        exact notNull rfl

theorem limitSearch_run (policy : GasPolicy) (method : String) (t : Record Json) :
    let o := (against Layer.forward (fillGas policy method t)).run backend earlier
    LimitSearch policy method t o.contacts o.result := by
  unfold fillGas guessGas
  split
  · next asked =>
    obtain ⟨limited, missing⟩ := Bool.and_eq_true_iff.1 asked
    replace limited := List.contains_iff_mem.1 limited
    rw [Attempt.against_bind, Attempt.against_bind, Attempt.against_ask,
      Attempt.bind_orStop_orStop, run_forward_orStop]
    dsimp only
    cases (backend earlier ⟨"eth_estimateGas", [.obj t]⟩).value with
    | error e => exact .refused limited missing e
    | ok v =>
      rw [orStop, Attempt.against_mk, gasOfEstimate]
      cases read : Quantity.ofJson? v with
      | none => exact .noQuantity limited missing read
      | some q => exact .quantity limited missing read
  · next notAsked =>
    refine .given ?_
    rintro ⟨limited, missing⟩
    exact notAsked (Bool.and_eq_true_iff.2 ⟨List.contains_iff_mem.2 limited, missing⟩)

theorem transmission_run (policy : GasPolicy) {c : Call} {t : Record Json} {rest : List Json}
    (brought : transaction? c = some (t, rest)) :
    let o := (Layer.defaultFields policy c).run backend earlier
    Transmission policy c.method t rest o.contacts o.result := by
  rw [← Layer.around_forward (.defaultFields policy), Layer.around_defaultFields, brought]
  dsimp only
  rw [against_fill_orStop, Attempt.run_bind_orStop]
  have searched := senderSearch_run backend earlier t
  generalize (against Layer.forward (fillSender t)).run backend earlier = first at *
  dsimp only at searched
  cases found : first.result with
  | error e =>
    rw [found] at searched
    exact .noSender searched
  | ok u =>
    rw [found] at searched
    dsimp only
    rw [Attempt.run_bind_orStop]
    have limited := limitSearch_run backend (earlier ++ first.calls) policy c.method u
    generalize (against Layer.forward (fillGas policy c.method u)).run backend
      (earlier ++ first.calls) = second at *
    dsimp only at limited
    cases filled : second.result with
    | error e =>
      rw [filled] at limited
      exact .noLimit searched limited
    | ok w =>
      rw [filled] at limited
      exact .sent searched limited _

/-- A call that brings no transaction is sent as it is, and its answer is the answer. -/
theorem run_of_no_transaction (policy : GasPolicy) {c : Call} (nothing : transaction? c = none) :
    let o := (Layer.defaultFields policy c).run backend earlier
    ∃ a, o.contacts = [⟨c, a⟩] ∧ o.result = a := by
  rw [← Layer.around_forward (.defaultFields policy), Layer.around_defaultFields, nothing]
  exact ⟨_, rfl, rfl⟩

end Run

/-! ## What the searches put in -/

/-- A field is absent or null. -/
def Missing (t : Record Json) (field : String) : Prop :=
  Record.get? t field = none ∨ Record.get? t field = some .null

theorem not_missing_of_isMissing {t : Record Json} {field : String}
    (present : isMissing t field = false) : ¬ Missing t field := by
  intro missing
  rw [isMissing_iff.2 missing] at present
  cases present

theorem mem_gasMethods {method : String} : method ∈ gasMethods ↔ method = "eth_call" :=
  List.mem_singleton

/-- The account that some contacts begin by finding: the coinbase, or else the first of the
accounts, or else null. -/
inductive BeginsByFinding : List Contact → Json → Prop where
  | coinbase {v : Json} (account : v ≠ .null) (later : List Contact) :
      BeginsByFinding (⟨⟨"eth_coinbase", []⟩, .ok v⟩ :: later) v
  | firstAccount (v : Json) (vs : List Json) (later : List Contact) :
      BeginsByFinding (⟨⟨"eth_coinbase", []⟩, .ok .null⟩
        :: ⟨⟨"eth_accounts", []⟩, .ok (.arr (v :: vs))⟩ :: later) v
  | noAccount {w : Json} (noItem : ∀ v vs, w ≠ .arr (v :: vs)) (later : List Contact) :
      BeginsByFinding (⟨⟨"eth_coinbase", []⟩, .ok .null⟩
        :: ⟨⟨"eth_accounts", []⟩, .ok w⟩ :: later) .null

/-- A transaction with the sender that some contacts begin by finding, if it had none. -/
structure WithSender (contacts : List Contact) (t u : Record Json) : Prop where
  given : ¬ Missing t "from" → u = t
  found : Missing t "from" →
    ∃ v, BeginsByFinding contacts v ∧ Record.get? u "from" = some v
  others : ∀ key, key ≠ "from" → Record.get? u key = Record.get? t key
  ordered : Record.Ordered t → Record.Ordered u

theorem SenderSearch.withSender {t u : Record Json} {ks : List Contact}
    (h : SenderSearch t ks (.ok u)) (later : List Contact) : WithSender (ks ++ later) t u := by
  have insert : ∀ v, isMissing t "from" = true → BeginsByFinding (ks ++ later) v →
      WithSender (ks ++ later) t (Record.insert t "from" v) := by
    intro v missing found
    refine ⟨fun given => absurd (isMissing_iff.1 missing) given, ?_, ?_, ?_⟩
    · intro _
      exact ⟨v, found, by rw [Record.get?_insert, if_pos rfl]⟩
    · intro key other
      rw [Record.get?_insert, if_neg other]
    · intro ordered
      exact Record.ordered_insert ordered "from" v
  cases h with
  | given present =>
    exact ⟨fun _ => rfl, fun missing => absurd missing (not_missing_of_isMissing present),
      fun _ _ => rfl, id⟩
  | coinbase missing account => exact insert _ missing (.coinbase account later)
  | accounts missing v =>
    refine insert _ missing ?_
    by_cases item : ∃ x xs, v = .arr (x :: xs)
    · obtain ⟨x, xs, rfl⟩ := item
      exact .firstAccount x xs later
    · have none : firstItem v = .null := by
        unfold firstItem
        split
        · next x xs => exact absurd ⟨x, xs, rfl⟩ item
        · rfl
      rw [none]
      exact .noAccount (fun x xs same => item ⟨x, xs, same⟩) later

theorem WithSender.kept {contacts : List Contact} {t u : Record Json}
    (h : WithSender contacts t u) {key : String} (other : key ≠ "from" ∨ ¬ Missing t key) :
    Record.get? u key = Record.get? t key := by
  by_cases sender : key = "from"
  · subst sender
    have given : ¬ Missing t "from" := other.resolve_left fun different => different rfl
    rw [h.given given]
  · exact h.others key sender

theorem WithSender.missing_gas_iff {contacts : List Contact} {t u : Record Json}
    (h : WithSender contacts t u) : Missing u "gas" ↔ Missing t "gas" := by
  rw [Missing, Missing, h.others "gas" (by decide)]

/-- The last of some contacts comes just after an estimate. -/
def EndsAfterEstimate (contacts : List Contact) (estimate : Json) : Prop :=
  ∃ before t k, contacts = before ++ [⟨⟨"eth_estimateGas", [.obj t]⟩, .ok estimate⟩, k]

/-- A transaction with the gas limit for the estimate that comes before the last of some contacts,
if the method has one and it was missing. -/
structure WithLimit (policy : GasPolicy) (method : String) (contacts : List Contact)
    (t u : Record Json) : Prop where
  given : ¬ (method = "eth_call" ∧ Missing t "gas") → u = t
  found : method = "eth_call" → Missing t "gas" →
    ∃ estimate q, EndsAfterEstimate contacts estimate ∧ Quantity.ofJson? estimate = some q ∧
      Record.get? u "gas" = some (.str (policy.limit q).encode)
  others : ∀ key, key ≠ "gas" → Record.get? u key = Record.get? t key
  ordered : Record.Ordered t → Record.Ordered u

theorem LimitSearch.withLimit {policy : GasPolicy} {method : String} {t u : Record Json}
    {ls : List Contact} (h : LimitSearch policy method t ls (.ok u)) (before : List Contact)
    (last : Contact) : WithLimit policy method (before ++ (ls ++ [last])) t u := by
  cases h with
  | given present =>
    rw [mem_gasMethods, isMissing_iff, ← Missing] at present
    exact ⟨fun _ => rfl, fun limited missing => absurd ⟨limited, missing⟩ present,
      fun _ _ => rfl, id⟩
  | @quantity limited missing v q estimate =>
    refine ⟨?_, ?_, ?_, ?_⟩
    · intro given
      exact absurd ⟨mem_gasMethods.1 limited, isMissing_iff.1 missing⟩ given
    · intro _ _
      refine ⟨v, q, ⟨before, t, last, rfl⟩, estimate, ?_⟩
      rw [Record.get?_insert, if_pos rfl]
    · intro key other
      rw [Record.get?_insert, if_neg other]
    · intro ordered
      exact Record.ordered_insert ordered "gas" _

theorem WithLimit.kept {policy : GasPolicy} {method : String} {contacts : List Contact}
    {t u : Record Json} (h : WithLimit policy method contacts t u) {key : String}
    (other : key ≠ "gas" ∨ method ≠ "eth_call" ∨ ¬ Missing t key) :
    Record.get? u key = Record.get? t key := by
  by_cases limit : key = "gas"
  · subst limit
    have given : ¬ (method = "eth_call" ∧ Missing t "gas") := by
      rintro ⟨limited, missing⟩
      rcases other with other | other | other
      · exact other rfl
      · exact other limited
      · exact other missing
    rw [h.given given]
  · exact h.others key limit

end EthGateway.DefaultFields
