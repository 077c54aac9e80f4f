import EthGateway.Proofs.Pipeline.Filling

/-
# EthGateway.Proofs.Pipeline.Sending -- what a conversation may send

`Exchange.Sends` says of a conversation that every call it may send has a property, whatever the
answers are that it gets on the way. It is closed under sequence (`sends_bind`) and under stages
that answer for the next one (`sends_through`), and it holds of the calls of every run
(`forall_calls_run`). Stages that differ only on calls that a conversation does not send make no
difference to it (`through_congr`).

Default fields send look-ups and the call itself (`DefaultFields.MadeFor`). The look-ups for a
sender bring no transaction, so every call that brings one brings the transaction of the request, of
which no field was changed that was not missing (`sends_defaultFields`).
-/

namespace EthGateway

namespace Exchange

variable {α β : Type} {P Q : Call → Prop}

/-- Every call that the conversation may send has the property. -/
def Sends (P : Call → Prop) : Exchange α → Prop
  | .done _ => True
  | .note _ x => x.Sends P
  | .send c next => P c ∧ ∀ a, (next a).Sends P

theorem Sends.mono {x : Exchange α} (h : x.Sends P) (imp : ∀ c, P c → Q c) : x.Sends Q := by
  induction x with
  | done a => trivial
  | note n x ih => exact ih h
  | send c next ih => exact ⟨imp c h.1, fun a => ih a (h.2 a)⟩

theorem sends_bind {x : Exchange α} {f : α → Exchange β} (first : x.Sends P)
    (next : ∀ a, (f a).Sends P) : (x >>= f).Sends P := by
  induction x with
  | done a => exact next a
  | note n x ih => exact ih first
  | send c next' ih => exact ⟨first.1, fun a => ih a (first.2 a)⟩

theorem sends_ofNoted (x : Noted α) : (ofNoted x).Sends P := by
  unfold ofNoted
  induction x.notices with
  | nil => trivial
  | cons n ns ih => exact ih

/-- A stage that answers for the next one sends what it sends for the calls it is given. -/
theorem sends_through {x : Exchange α} {stage : Layer} (given : x.Sends P)
    (answers : ∀ c, P c → (stage c).Sends Q) : (x.through stage).Sends Q := by
  induction x with
  | done a => trivial
  | note n x ih => exact ih given
  | send c next ih => exact sends_bind (answers c given.1) fun a => ih a (given.2 a)

/-- Stages that answer alike every call that a conversation may send make it go on alike. -/
theorem through_congr {x : Exchange α} {stage stage' : Layer} (sends : x.Sends P)
    (alike : ∀ c, P c → stage c = stage' c) : x.through stage = x.through stage' := by
  induction x with
  | done a => rfl
  | note n x ih => exact congrArg (note n) (ih sends)
  | send c next ih =>
    rw [through, through, alike c sends.1]
    exact bind_congr fun a => ih a (sends.2 a)

theorem forall_calls_run {x : Exchange α} (h : x.Sends P) (backend : Backend)
    (earlier : List Call) : ∀ d ∈ (x.run backend earlier).calls, P d := by
  induction x generalizing earlier with
  | done a => exact fun d hd => absurd hd List.not_mem_nil
  | note n x ih => exact ih h earlier
  | send c next ih =>
    intro d hd
    rcases List.mem_cons.1 hd with rfl | hd
    · exact h.1
    · exact ih _ (h.2 _) (earlier ++ [c]) d hd

end Exchange

open Exchange (Sends)

/-- What follows an attempt sends what it sends for a value. -/
theorem Attempt.sends_orStop {α β : Type} {P : Call → Prop}
    {f : α → Exchange (Except RpcError β)} (h : ∀ a, (f a).Sends P) (r : Except RpcError α) :
    (Attempt.orStop f r).Sends P := by
  cases r with
  | ok a => exact h a
  | error e => trivial

/-- A formatting sends the call on with its arguments formatted. -/
theorem Layer.sends_formatting (f : Formatting) (c : Call) :
    (Layer.formatting f c).Sends fun d => d = f.received c := by
  rw [Layer.formatting_eq]
  unfold Exchange.ofNoted Formatting.received
  induction (f.formatRequest c.method c.params).notices with
  | nil => exact ⟨rfl, fun a => Exchange.sends_ofNoted (f.answered c.method a)⟩
  | cons n ns ih => exact ih

/-! ## Default fields -/

namespace DefaultFields

/-- A transaction of which some missing fields were filled in. -/
structure Filled (t filled : Record Json) : Prop where
  ordered : Record.Ordered t → Record.Ordered filled
  /-- What was not missing is there as it was. -/
  kept : ∀ key, isMissing t key = false → Record.get? filled key = Record.get? t key
  /-- Only senders and gas limits are filled in. -/
  others : ∀ key, key ∉ ["from", "gas"] → Record.get? filled key = Record.get? t key

theorem Filled.refl (t : Record Json) : Filled t t := ⟨id, fun _ _ => rfl, fun _ _ => rfl⟩

theorem Filled.insert {t filled : Record Json} (h : Filled t filled) {field : String}
    (filledIn : field ∈ ["from", "gas"]) (missing : isMissing filled field = true) (v : Json) :
    Filled t (Record.insert filled field v) := by
  refine ⟨?_, ?_, ?_⟩
  · intro ordered
    exact Record.ordered_insert (h.ordered ordered) field v
  · intro key present
    have same := h.kept key present
    -- The field that is filled in was missing before, so it is another one.
    have notField : key ≠ field := by
      rintro rfl
      rw [isMissing, same] at missing
      rw [isMissing, missing] at present
      cases present
    rw [Record.get?_insert, if_neg notField, same]
  · intro key other
    have notField : key ≠ field := fun same => other (same ▸ filledIn)
    rw [Record.get?_insert, if_neg notField, h.others key other]

/-- A call of a method that takes a transaction brings this one, filled or as it is. -/
def Brings (t : Record Json) (c : Call) : Prop :=
  c.method ∈ senderMethods → ∃ filled rest, c.params = .obj filled :: rest ∧ Filled t filled

theorem brings_resend {t filled : Record Json} (h : Filled t filled) (method : String)
    (rest : List Json) : Brings t (resend method rest filled) :=
  fun _ => ⟨filled, rest, rfl, h⟩

/-- The calls that are made to fill a transaction and to send it on: look-ups for a sender, which
have no arguments, and calls with the transaction as the first of them. -/
inductive MadeFor (t : Record Json) : Call → Prop where
  | lookup {method : String} (other : method ∉ senderMethods) : MadeFor t ⟨method, []⟩
  | resent {method : String} (sender : method ∈ senderMethods) {filled : Record Json}
      (h : Filled t filled) (rest : List Json) : MadeFor t (resend method rest filled)

theorem MadeFor.brings {t : Record Json} {c : Call} (h : MadeFor t c) : Brings t c := by
  cases h with
  | lookup other => exact fun sender => absurd sender other
  | resent _ h rest => exact brings_resend h _ rest

theorem MadeFor.sender_or_no_params {t : Record Json} {c : Call} (h : MadeFor t c) :
    c.method ∈ senderMethods ∨ c.params = [] := by
  cases h with
  | lookup => exact .inr rfl
  | resent sender => exact .inl sender

variable {inner : Layer} {t : Record Json} {Q : Call → Prop}

section Made

variable (inside : ∀ c, MadeFor t c → (inner c).Sends Q)
include inside

theorem sends_guessSender : (Attempt.against inner guessSender).Sends Q := by
  have lookup : ∀ method, method ∉ senderMethods → (inner ⟨method, []⟩).Sends Q :=
    fun method other => inside _ (.lookup other)
  rw [against_guessSender]
  refine Exchange.sends_bind (lookup "eth_coinbase" (by decide)) (Attempt.sends_orStop ?_)
  intro coinbase
  split
  · refine Exchange.sends_bind (lookup "eth_accounts" (by decide)) (Attempt.sends_orStop ?_)
    intro accounts
    trivial
  · trivial

/-- Default fields in front of a layer send what the layer sends for the calls that are made to fill
the transaction of the request. -/
theorem sends_of_madeFor (policy : GasPolicy) {method : String} (sender : method ∈ senderMethods)
    (rest : List Json) :
    (Layer.around (.defaultFields policy) inner (resend method rest t)).Sends Q := by
  have brought : transaction? (resend method rest t) = some (t, rest) :=
    transaction?_eq_some_iff.2 ⟨sender, rfl⟩
  have resent : ∀ filled, Filled t filled → (inner (resend method rest filled)).Sends Q :=
    fun filled h => inside _ (.resent sender h rest)
  have limited : ∀ filled, Filled t filled →
      (Attempt.against inner (fillGas policy method filled) >>=
        Attempt.orStop fun t => inner (resend method rest t)).Sends Q := by
    intro filled h
    rw [against_fillGas_orStop]
    split
    · next missing =>
      -- The estimate brings the transaction too, with its sender filled in.
      have noGas := (Bool.and_eq_true_iff.1 missing).2
      have estimated := inside _ (.resent (show "eth_estimateGas" ∈ senderMethods by decide) h [])
      refine Exchange.sends_bind estimated (Attempt.sends_orStop ?_)
      intro estimate
      refine Attempt.sends_orStop ?_ _
      intro gas
      exact resent _ (h.insert (by decide) noGas gas)
    · exact resent filled h
  rw [Layer.around_defaultFields, brought]
  dsimp only
  rw [against_fill_orStop, against_fillSender_orStop]
  split
  · next missing =>
    refine Exchange.sends_bind (sends_guessSender inside) (Attempt.sends_orStop ?_)
    intro sender
    exact limited _ ((Filled.refl t).insert (by decide) missing sender)
  · exact limited t (Filled.refl t)

end Made

/-- Default fields in front of a layer send what the layer sends for calls that bring the
transaction of the request, or none. -/
theorem sends_defaultFields (inside : ∀ c, Brings t c → (inner c).Sends Q) (policy : GasPolicy)
    {method : String} (sender : method ∈ senderMethods) (rest : List Json) :
    (Layer.around (.defaultFields policy) inner (resend method rest t)).Sends Q :=
  sends_of_madeFor (fun c made => inside c made.brings) policy sender rest

/-- Whatever the request, default fields send it on, or else calls that take a transaction, or
look-ups without arguments. -/
theorem sends_defaultFields_call (policy : GasPolicy) (c : Call) :
    (Layer.defaultFields policy c).Sends fun d =>
      d = c ∨ d.method ∈ senderMethods ∨ d.params = [] := by
  have forward : ∀ {P : Call → Prop} {d : Call}, P d → (Layer.forward d).Sends P :=
    fun h => ⟨h, fun _ => trivial⟩
  rw [← Layer.around_forward (.defaultFields policy)]
  cases brought : transaction? c with
  | none =>
    rw [Layer.around_defaultFields, brought]
    exact forward (.inl rfl)
  | some q =>
    obtain ⟨t, rest⟩ := q
    obtain ⟨sender, params⟩ := transaction?_eq_some_iff.1 brought
    have whole : c = resend c.method rest t := by rw [resend, ← params]
    have alone : ∀ d, MadeFor t d → (Layer.forward d).Sends fun d =>
        d = c ∨ d.method ∈ senderMethods ∨ d.params = [] :=
      fun d made => forward (.inr made.sender_or_no_params)
    have made := sends_of_madeFor alone policy sender rest
    rw [← whole] at made
    exact made

end DefaultFields

end EthGateway
