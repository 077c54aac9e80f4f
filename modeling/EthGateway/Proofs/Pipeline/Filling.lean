import EthGateway.Proofs.Pipeline.Run
import EthGateway.Proofs.Record.Lookup

/-
# EthGateway.Proofs.Pipeline.Filling -- the default fields in front of a layer

The look-ups of the default fields are attempts: conversations that may end with an error. Against
the layer that answers it, an attempt is an exchange (`Attempt.against`), and what comes after it is
done only if it has a value (`Attempt.orStop`). With these two the whole layer is written out as the
calls that it makes: `around_defaultFields` for a call, `against_fill_orStop` for its transaction,
and `against_guessSender`, `against_fillSender_orStop` and `against_fillGas_orStop` for the single
look-ups. A run of it goes on or stops at each of them (`run_bind_orStop`).

Two transactions with the same fields may differ in values that the layer inside makes the same of.
Default fields in front of such a layer look at the transaction before it does, and send it on in an
estimate. They do not see the difference either, if it is none of what is missing
(`blindTo_defaultFields`): the same look-ups follow, both transactions get the same new fields, and
so they stay related until the layer inside sees them.
-/

namespace EthGateway

/-! ## Attempts against a layer -/

namespace Attempt

variable {α β : Type}

/-- An attempt whose calls a layer answers. -/
def against (inner : Layer) (x : Attempt α) : Exchange (Except RpcError α) :=
  Exchange.through inner (ExceptT.run x)

/-- Go on from a value; an error is the end. -/
def orStop (f : α → Exchange (Except RpcError β)) : Except RpcError α → Exchange (Except RpcError β)
  | .ok a => f a
  | .error e => .done (.error e)

variable (inner : Layer)

/-- The end of one attempt is the end of all that follows it. -/
theorem bind_orStop_orStop {γ : Type} (x : Exchange (Except RpcError α))
    (f : α → Exchange (Except RpcError β)) (g : β → Exchange (Except RpcError γ)) :
    (x >>= orStop f >>= orStop g) = (x >>= orStop fun a => f a >>= orStop g) := by
  rw [Exchange.bind_assoc]
  refine bind_congr fun r => ?_
  cases r <;> rfl

theorem bind_orStop_congr {x : Exchange (Except RpcError α)}
    {f g : α → Exchange (Except RpcError β)} (h : ∀ a, f a = g a) :
    (x >>= orStop f) = (x >>= orStop g) := by
  refine bind_congr fun r => ?_
  cases r with
  | ok a => exact h a
  | error e => rfl

/-- A run goes on from a value; at an error it is over. -/
theorem run_bind_orStop (backend : Backend) (earlier : List Call)
    (x : Exchange (Except RpcError α)) (f : α → Exchange (Except RpcError β)) :
    (x >>= orStop f).run backend earlier =
      match (x.run backend earlier).result with
      | .ok a =>
        (x.run backend earlier).followedBy
          ((f a).run backend (earlier ++ (x.run backend earlier).calls))
      | .error e =>
        ⟨(x.run backend earlier).contacts, (x.run backend earlier).notices, .error e⟩ := by
  rw [Exchange.run_bind]
  cases (x.run backend earlier).result with
  | ok a => rfl
  | error e => simp [orStop, Outcome.followedBy]

theorem against_bind (x : Attempt α) (f : α → Attempt β) :
    against inner (x >>= f) = (against inner x >>= orStop fun a => against inner (f a)) := by
  rw [against, ExceptT.run_bind, Exchange.through_bind]
  refine bind_congr fun r => ?_
  cases r <;> rfl

theorem against_ask (method : String) (params : List Json) :
    against inner (DefaultFields.ask method params) = inner ⟨method, params⟩ :=
  Exchange.ask_through inner ⟨method, params⟩

/-- An attempt that has its result already asks nothing. -/
theorem against_mk (r : Except RpcError α) : against inner (ExceptT.mk (pure r)) = .done r := rfl

end Attempt

/-! ## Missing fields -/

namespace DefaultFields

theorem isMissing_iff {t : Record Json} {field : String} :
    isMissing t field = true ↔ Record.get? t field = none ∨ Record.get? t field = some .null := by
  unfold isMissing
  cases Record.get? t field with
  | none => simp
  | some v => cases v <;> simp [Json.isNull]

theorem isMissing_insert_of_ne {field key : String} (h : field ≠ key) (t : Record Json) (v : Json) :
    isMissing (Record.insert t key v) field = isMissing t field := by
  rw [isMissing, isMissing, Record.get?_insert, if_neg h]

/-! ## The calls that bring a transaction -/

/-- The transaction that a call brings to be filled, and the arguments behind it. -/
def transaction? (c : Call) : Option (Record Json × List Json) :=
  if senderMethods.contains c.method then
    match c.params with
    | .obj transaction :: rest => some (transaction, rest)
    | _ => none
  else none

theorem transaction?_eq_some_iff {c : Call} {t : Record Json} {rest : List Json} :
    transaction? c = some (t, rest) ↔ c.method ∈ senderMethods ∧ c.params = .obj t :: rest := by
  unfold transaction?
  split
  · next h =>
    rw [List.contains_iff_mem] at h
    split
    · next t' rest' hp => simp [h, hp]
    · next hne => simpa [h] using fun hp => hne t rest hp
  · next h => simp_all

theorem transaction?_of_not_sender {c : Call} (h : c.method ∉ senderMethods) :
    transaction? c = none := by
  rw [transaction?, if_neg (mt List.contains_iff_mem.1 h)]

/-- The call as it goes on with its transaction filled. -/
def resend (method : String) (rest : List Json) (filled : Record Json) : Call :=
  ⟨method, .obj filled :: rest⟩

end DefaultFields

namespace Layer

variable (inner : Layer)

open DefaultFields in
theorem around_defaultFields (policy : GasPolicy) (c : Call) :
    around (defaultFields policy) inner c =
      match transaction? c with
      | some (t, rest) =>
        Attempt.against inner (fill policy c.method t) >>=
          Attempt.orStop fun filled => inner (resend c.method rest filled)
      | none => inner c := by
  cases h : transaction? c with
  | none =>
    -- The method is another one, or the first argument is no record.
    unfold transaction? at h
    unfold around defaultFields
    split
    · next hm =>
      rw [if_pos hm] at h
      split
      · next hp => simp [hp] at h
      · exact Exchange.ask_through inner c
    · exact Exchange.ask_through inner c
  | some q =>
    obtain ⟨t, rest⟩ := q
    obtain ⟨hm, hp⟩ := transaction?_eq_some_iff.1 h
    unfold around defaultFields
    rw [if_pos (List.contains_iff_mem.2 hm), hp]
    have whole := Attempt.against_bind inner (fill policy c.method t)
      fun filled => ask c.method (.obj filled :: rest)
    simp only [Attempt.against_ask] at whole
    exact whole

end Layer

/-! ## The look-ups -/

namespace DefaultFields

open Attempt (against orStop)

variable (inner : Layer)

theorem against_guessSender :
    against inner guessSender =
      (inner ⟨"eth_coinbase", []⟩ >>= orStop fun coinbase =>
        if coinbase.isNull then
          inner ⟨"eth_accounts", []⟩ >>= orStop fun accounts => .done (.ok (firstItem accounts))
        else .done (.ok coinbase)) := by
  rw [guessSender, Attempt.against_bind, Attempt.against_ask]
  refine Attempt.bind_orStop_congr fun coinbase => ?_
  split
  · rw [Attempt.against_bind, Attempt.against_ask]
    rfl
  · rfl

variable {α : Type}

/-- With its sender filled in or as it is, the transaction goes on. -/
theorem against_fillSender_orStop (t : Record Json)
    (f : Record Json → Exchange (Except RpcError α)) :
    (against inner (fillSender t) >>= orStop f) =
      if isMissing t "from" then
        against inner guessSender >>= orStop fun sender => f (Record.insert t "from" sender)
      else f t := by
  unfold fillSender
  split
  · rw [Attempt.against_bind, Attempt.bind_orStop_orStop]
    rfl
  · rfl

/-- With its gas limit filled in or as it is, the transaction goes on; an estimate that is no
quantity is the end. -/
theorem against_fillGas_orStop (policy : GasPolicy) (method : String) (t : Record Json)
    (f : Record Json → Exchange (Except RpcError α)) :
    (against inner (fillGas policy method t) >>= orStop f) =
      if gasMethods.contains method && isMissing t "gas" then
        inner ⟨"eth_estimateGas", [.obj t]⟩ >>= orStop fun estimate =>
          orStop (fun gas => f (Record.insert t "gas" gas)) (gasOfEstimate policy estimate)
      else f t := by
  unfold fillGas guessGas
  split
  · rw [Attempt.against_bind, Attempt.against_bind, Attempt.against_ask, Attempt.bind_orStop_orStop,
      Attempt.bind_orStop_orStop]
    refine Attempt.bind_orStop_congr fun estimate => ?_
    -- From an estimate to a limit there is no further call.
    rw [Attempt.against_mk]
    cases gasOfEstimate policy estimate <;> rfl
  · rfl

theorem against_fill_orStop (policy : GasPolicy) (method : String) (t : Record Json)
    (f : Record Json → Exchange (Except RpcError α)) :
    (against inner (fill policy method t) >>= orStop f) =
      (against inner (fillSender t) >>= orStop fun t =>
        against inner (fillGas policy method t) >>= orStop f) := by
  rw [fill, Attempt.against_bind, Attempt.bind_orStop_orStop]

end DefaultFields

/-! ## Transactions that a layer cannot tell apart -/

namespace DefaultFields

open Attempt (against orStop)
open Record (Related)

/-- A relation of the values of fields under which null and all else stay apart. -/
structure KeepsMissing (R : String → Json → Json → Prop) : Prop where
  refl : ∀ key v, R key v v
  isNull : ∀ key v w, R key v w → v.isNull = w.isNull

/-- A layer does not see the difference of transactions whose fields are related. -/
def BlindTo (R : String → Json → Json → Prop) (inner : Layer) : Prop :=
  ∀ method ∈ senderMethods, ∀ rest t u, Related R t u →
    inner (resend method rest t) = inner (resend method rest u)

variable {R : String → Json → Json → Prop} (keeps : KeepsMissing R) {inner : Layer}
  {t u : Record Json}
include keeps

theorem isMissing_of_related (h : Related R t u) (field : String) :
    isMissing t field = isMissing u field := by
  have same := h.get? field
  unfold isMissing
  generalize Record.get? t field = before at same ⊢
  generalize Record.get? u field = after at same ⊢
  cases same with
  | none => rfl
  | @some v w hvw => exact keeps.isNull field v w hvw

variable {α : Type} {f : Record Json → Exchange (Except RpcError α)}

theorem fillSender_of_related (h : Related R t u) (hf : ∀ t u, Related R t u → f t = f u) :
    (against inner (fillSender t) >>= orStop f) = (against inner (fillSender u) >>= orStop f) := by
  rw [against_fillSender_orStop, against_fillSender_orStop, isMissing_of_related keeps h]
  split
  · exact Attempt.bind_orStop_congr fun sender => hf _ _ (h.insert (keeps.refl "from" sender))
  · exact hf t u h

theorem fillGas_of_related (blind : BlindTo R inner) (policy : GasPolicy) (method : String)
    (h : Related R t u) (hf : ∀ t u, Related R t u → f t = f u) :
    (against inner (fillGas policy method t) >>= orStop f) =
      (against inner (fillGas policy method u) >>= orStop f) := by
  rw [against_fillGas_orStop, against_fillGas_orStop, isMissing_of_related keeps h]
  split
  · have estimated : inner ⟨"eth_estimateGas", [.obj t]⟩ = inner ⟨"eth_estimateGas", [.obj u]⟩ :=
      blind "eth_estimateGas" (by decide) [] t u h
    rw [estimated]
    refine Attempt.bind_orStop_congr fun estimate => ?_
    cases gasOfEstimate policy estimate with
    | ok gas => exact hf _ _ (h.insert (keeps.refl "gas" gas))
    | error e => rfl
  · exact hf t u h

/-- Default fields in front of a layer that sees no difference see none. -/
theorem blindTo_defaultFields (blind : BlindTo R inner) (policy : GasPolicy) :
    BlindTo R (Layer.around (.defaultFields policy) inner) := by
  intro method sender rest t u h
  have brought : ∀ t, transaction? (resend method rest t) = some (t, rest) := fun t =>
    transaction?_eq_some_iff.2 ⟨sender, rfl⟩
  have resent : ∀ t u, Related R t u → inner (resend method rest t) = inner (resend method rest u) :=
    blind method sender rest
  rw [Layer.around_defaultFields, Layer.around_defaultFields, brought, brought]
  dsimp only
  rw [against_fill_orStop, against_fill_orStop]
  -- The filled transactions are related again, so the relation goes on into the second look-up.
  exact fillSender_of_related keeps h fun _ _ h =>
    fillGas_of_related keeps blind policy method h resent

end DefaultFields

end EthGateway
