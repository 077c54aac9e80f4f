import EthGateway.Proofs.Pipeline.Transmission

/-
# EthGateway.Proofs.Pipeline.Protocol -- the calls of default fields, and the one that is filled

The calls that default fields make for a transaction are four at most, always in the same order: the
coinbase, the accounts, an estimate, and the call itself. `Protocol` says of each when it is made
and with which arguments, and what the request comes to; `followsProtocol_run` says that every run
keeps to it, and that a call without a transaction is sent alone and as it is.

The call itself brings the transaction of the request with nothing changed but what was missing
(`onlyFilled_of_forwarded`): the sender and, for `eth_call`, the gas limit.

Both follow from the ways in which a transmission may go. Each of the two searches is a part of the
protocol (`SenderSearch.part`, `LimitSearch.part`), and a whole one is put together from the parts
(`Transmission.protocol`).
-/

namespace EthGateway.DefaultFields

/-! ## The protocol -/

/-- The call brings a transaction that is to be filled. -/
def BringsTransaction (c : Call) (t : Record Json) (rest : List Json) : Prop :=
  c.method ∈ ["eth_call", "eth_estimateGas", "eth_sendTransaction", "personal_sendTransaction"] ∧
    c.params = .obj t :: rest

theorem transaction?_eq_some_iff_brings {c : Call} {t : Record Json} {rest : List Json} :
    transaction? c = some (t, rest) ↔ BringsTransaction c t rest :=
  transaction?_eq_some_iff

/-- The answer to a contact is a value. -/
def Answered (k : Contact) : Prop := ∃ v, k.answer = .ok v

/-- The answer to a contact is a quantity. -/
def Estimated (k : Contact) : Prop := ∃ v q, k.answer = .ok v ∧ Quantity.ofJson? v = some q

/-- The look-ups for a sender, each of them made or not. -/
structure SenderLookups (t : Record Json) (coinbase accounts : Option Contact) : Prop where
  coinbase_iff : coinbase.isSome ↔ Missing t "from"
  coinbase_call : ∀ k ∈ coinbase, k.call = ⟨"eth_coinbase", []⟩
  accounts_iff : accounts.isSome ↔ ∃ k ∈ coinbase, k.answer = .ok .null
  accounts_call : ∀ k ∈ accounts, k.call = ⟨"eth_accounts", []⟩

/-- All look-ups for a transaction, the estimate among them. -/
structure Lookups (method : String) (t : Record Json) (contacts : List Contact)
    (coinbase accounts estimate : Option Contact) : Prop
    extends SenderLookups t coinbase accounts where
  estimate_iff : estimate.isSome ↔ method = "eth_call" ∧ Missing t "gas" ∧
    (∀ k ∈ coinbase, Answered k) ∧ ∀ k ∈ accounts, Answered k
  estimate_call : ∀ k ∈ estimate,
    ∃ u, k.call = ⟨"eth_estimateGas", [.obj u]⟩ ∧ WithSender contacts t u

/-- What is sent for a transaction, each of four calls or not, and what comes of it. -/
structure Protocol (method : String) (t : Record Json) (rest : List Json)
    (contacts : List Contact) (result : Answer)
    (coinbase accounts estimate primary : Option Contact) : Prop
    extends Lookups method t contacts coinbase accounts estimate where
  order : contacts = coinbase.toList ++ accounts.toList ++ estimate.toList ++ primary.toList
  primary_iff : primary.isSome ↔
    (∀ k ∈ coinbase, Answered k) ∧ (∀ k ∈ accounts, Answered k) ∧ ∀ k ∈ estimate, Estimated k
  primary_call : ∀ k ∈ primary, ∃ u, k.call = resend method rest u
  /-- The error of any call is the end, as it is. -/
  failed : ∀ k ∈ contacts, ∀ e, k.answer = .error e → result = .error e
  noQuantity : ∀ k ∈ estimate, ∀ v, k.answer = .ok v → Quantity.ofJson? v = none →
    result = .error (.invalidQuantity ("eth_estimateGas returned " ++ v.compress))
  returned : ∀ k ∈ primary, result = k.answer

/-- What default fields do with any call: a transaction is filled by the protocol, and a call that
brings none is sent as it is. -/
inductive FollowsProtocol (c : Call) (o : Outcome Answer) : Prop where
  | filled {t : Record Json} {rest : List Json} (brought : BringsTransaction c t rest)
      (coinbase accounts estimate primary : Option Contact)
      (protocol : Protocol c.method t rest o.contacts o.result coinbase accounts estimate primary)
  | plain (nothing : ∀ t rest, ¬ BringsTransaction c t rest) (a : Answer)
      (contacts : o.contacts = [⟨c, a⟩]) (result : o.result = a)

/-! ## Each search by itself -/

/-- The part of the protocol that a search for a sender is. -/
structure SenderPart (t : Record Json) (ks : List Contact) (r : Except RpcError (Record Json))
    (coinbase accounts : Option Contact) : Prop extends SenderLookups t coinbase accounts where
  order : ks = coinbase.toList ++ accounts.toList
  ok_iff : (∃ u, r = .ok u) ↔ (∀ k ∈ coinbase, Answered k) ∧ ∀ k ∈ accounts, Answered k
  failed : ∀ k ∈ ks, ∀ e, k.answer = .error e → r = .error e

theorem SenderSearch.part {t : Record Json} {ks : List Contact}
    {r : Except RpcError (Record Json)} (h : SenderSearch t ks r) :
    ∃ coinbase accounts, SenderPart t ks r coinbase accounts := by
  cases h with
  | given present =>
    have given := not_missing_of_isMissing present
    refine ⟨none, none, ⟨?_, ?_, ?_, ?_⟩, ?_, ?_, ?_⟩ <;> simp [given]
  | refused missing e =>
    have missing := isMissing_iff.1 missing
    refine ⟨some ⟨⟨"eth_coinbase", []⟩, .error e⟩, none, ⟨?_, ?_, ?_, ?_⟩, ?_, ?_, ?_⟩
      <;> simp [Answered, Missing, missing]
  | @coinbase missing v account =>
    have missing := isMissing_iff.1 missing
    refine ⟨some ⟨⟨"eth_coinbase", []⟩, .ok v⟩, none, ⟨?_, ?_, ?_, ?_⟩, ?_, ?_, ?_⟩
      <;> simp [Answered, Missing, missing, account]
  | noAccounts missing e =>
    have missing := isMissing_iff.1 missing
    refine ⟨some ⟨⟨"eth_coinbase", []⟩, .ok .null⟩, some ⟨⟨"eth_accounts", []⟩, .error e⟩,
      ⟨?_, ?_, ?_, ?_⟩, ?_, ?_, ?_⟩
      <;> simp [Answered, Missing, missing]
  | accounts missing v =>
    have missing := isMissing_iff.1 missing
    refine ⟨some ⟨⟨"eth_coinbase", []⟩, .ok .null⟩, some ⟨⟨"eth_accounts", []⟩, .ok v⟩,
      ⟨?_, ?_, ?_, ?_⟩, ?_, ?_, ?_⟩
      <;> simp [Answered, Missing, missing]

/-- The part of the protocol that a search for a gas limit is. -/
structure LimitPart (method : String) (t : Record Json) (ls : List Contact)
    (r : Except RpcError (Record Json)) (estimate : Option Contact) : Prop where
  order : ls = estimate.toList
  estimate_iff : estimate.isSome ↔ method = "eth_call" ∧ Missing t "gas"
  estimate_call : ∀ k ∈ estimate, k.call = ⟨"eth_estimateGas", [.obj t]⟩
  ok_iff : (∃ w, r = .ok w) ↔ ∀ k ∈ estimate, Estimated k
  failed : ∀ k ∈ ls, ∀ e, k.answer = .error e → r = .error e
  noQuantity : ∀ k ∈ estimate, ∀ v, k.answer = .ok v → Quantity.ofJson? v = none →
    r = .error (.invalidQuantity ("eth_estimateGas returned " ++ v.compress))

theorem LimitSearch.part {policy : GasPolicy} {method : String} {t : Record Json}
    {ls : List Contact} {r : Except RpcError (Record Json)}
    (h : LimitSearch policy method t ls r) : ∃ estimate, LimitPart method t ls r estimate := by
  have asks : method ∈ gasMethods → isMissing t "gas" = true →
      method = "eth_call" ∧ Missing t "gas" := fun limited missing =>
    ⟨mem_gasMethods.1 limited, isMissing_iff.1 missing⟩
  cases h with
  | given present =>
    rw [mem_gasMethods, isMissing_iff, ← Missing] at present
    exact ⟨none, by constructor <;> simp [present]⟩
  | refused limited missing e =>
    have asked := asks limited missing
    exact ⟨some ⟨⟨"eth_estimateGas", [.obj t]⟩, .error e⟩,
      by constructor <;> simp [asked, Estimated]⟩
  | @noQuantity limited missing v useless =>
    have asked := asks limited missing
    exact ⟨some ⟨⟨"eth_estimateGas", [.obj t]⟩, .ok v⟩,
      by constructor <;> simp [asked, useless, Estimated]⟩
  | @quantity limited missing v q estimate =>
    have asked := asks limited missing
    exact ⟨some ⟨⟨"eth_estimateGas", [.obj t]⟩, .ok v⟩,
      by constructor <;> simp [asked, estimate, Estimated]⟩

/-! ## Both searches and the call -/

theorem lookups_of_parts {method : String} {t u : Record Json} {contacts ks ls : List Contact}
    {r : Except RpcError (Record Json)} {coinbase accounts estimate : Option Contact}
    (first : SenderPart t ks (.ok u) coinbase accounts) (second : LimitPart method u ls r estimate)
    (found : WithSender contacts t u) : Lookups method t contacts coinbase accounts estimate where
  toSenderLookups := first.toSenderLookups
  estimate_iff := by
    have answered := first.ok_iff.1 ⟨u, rfl⟩
    rw [second.estimate_iff, found.missing_gas_iff, and_iff_left answered]
  estimate_call k hk := ⟨u, second.estimate_call k hk, found⟩

theorem Transmission.protocol {policy : GasPolicy} {method : String} {t : Record Json}
    {rest : List Json} {contacts : List Contact} {result : Answer}
    (h : Transmission policy method t rest contacts result) :
    ∃ coinbase accounts estimate primary,
      Protocol method t rest contacts result coinbase accounts estimate primary := by
  cases h with
  | noSender searched =>
    obtain ⟨coinbase, accounts, first⟩ := searched.part
    have stopped : ¬ ((∀ k ∈ coinbase, Answered k) ∧ ∀ k ∈ accounts, Answered k) := by
      rw [← first.ok_iff]
      rintro ⟨u, same⟩
      cases same
    refine ⟨coinbase, accounts, none, none, ?_⟩
    exact {
      toSenderLookups := first.toSenderLookups
      estimate_iff := ⟨nofun, fun asked => absurd asked.2.2 stopped⟩
      estimate_call := nofun
      order := by simpa using first.order
      primary_iff := ⟨nofun, fun sent => absurd ⟨sent.1, sent.2.1⟩ stopped⟩
      primary_call := nofun
      failed := fun k hk e he => congrArg _ (Except.error.inj (first.failed k hk e he))
      noQuantity := nofun
      returned := nofun }
  | @noLimit ks ls u e searched limited =>
    obtain ⟨coinbase, accounts, first⟩ := searched.part
    obtain ⟨estimate, second⟩ := limited.part
    have found := searched.withSender ls
    have stopped : ¬ ∀ k ∈ estimate, Estimated k := by
      rw [← second.ok_iff]
      rintro ⟨w, same⟩
      cases same
    refine ⟨coinbase, accounts, estimate, none, ?_⟩
    exact {
      toLookups := lookups_of_parts first second found
      order := by simp [first.order, second.order]
      primary_iff := ⟨nofun, fun sent => absurd sent.2.2 stopped⟩
      primary_call := nofun
      failed := by
        intro k hk e' he
        rcases List.mem_append.1 hk with hk | hk
        · cases first.failed k hk e' he
        · exact congrArg _ (Except.error.inj (second.failed k hk e' he))
      noQuantity := fun k hk v answer useless =>
        congrArg _ (Except.error.inj (second.noQuantity k hk v answer useless))
      returned := nofun }
  | @sent ks ls u w searched limited =>
    obtain ⟨coinbase, accounts, first⟩ := searched.part
    obtain ⟨estimate, second⟩ := limited.part
    have found := searched.withSender (ls ++ [⟨resend method rest w, result⟩])
    have answered := first.ok_iff.1 ⟨u, rfl⟩
    have estimated := second.ok_iff.1 ⟨w, rfl⟩
    refine ⟨coinbase, accounts, estimate, some ⟨resend method rest w, result⟩, ?_⟩
    exact {
      toLookups := lookups_of_parts first second found
      order := by simp [first.order, second.order]
      primary_iff := ⟨fun _ => ⟨answered.1, answered.2, estimated⟩, fun _ => rfl⟩
      primary_call := by
        rintro k ⟨⟩
        exact ⟨w, rfl⟩
      failed := by
        intro k hk e he
        rcases List.mem_append.1 hk with hk | hk
        · cases first.failed k hk e he
        rcases List.mem_append.1 hk with hk | hk
        · cases second.failed k hk e he
        obtain rfl := List.mem_singleton.1 hk
        exact he
      noQuantity := fun k hk v answer useless => by
        cases second.noQuantity k hk v answer useless
      returned := by
        rintro k ⟨⟩
        rfl }

/-- Every run keeps to the protocol. -/
theorem followsProtocol_run (policy : GasPolicy) (c : Call) (backend : Backend)
    (earlier : List Call) :
    FollowsProtocol c ((Layer.defaultFields policy c).run backend earlier) := by
  cases brought : transaction? c with
  | none =>
    obtain ⟨a, contacts, result⟩ := run_of_no_transaction backend earlier policy brought
    refine .plain ?_ a contacts result
    intro t rest brings
    rw [transaction?_eq_some_iff_brings.2 brings] at brought
    cases brought
  | some q =>
    obtain ⟨t, rest⟩ := q
    obtain ⟨coinbase, accounts, estimate, primary, protocol⟩ :=
      (transmission_run backend earlier policy brought).protocol
    exact .filled (transaction?_eq_some_iff_brings.1 brought) coinbase accounts estimate primary
      protocol

/-- No account is known, and the estimate is no quantity: three look-ups, and then nothing. -/
example :
    let o := (Layer.defaultFields GasPolicy.standard ⟨"eth_call", [.obj []]⟩).run
      (Backend.ofScript [("eth_accounts", .ok (.arr [])), ("eth_estimateGas", .ok (.str "0x"))]) []
    o.calls = [⟨"eth_coinbase", []⟩, ⟨"eth_accounts", []⟩,
      ⟨"eth_estimateGas", [.obj [("from", .null)]]⟩] := by
  decide +kernel

/-! ## The call that is forwarded -/

/-- A transaction of which nothing was changed but what the method fills in and what was missing;
the contacts say what was found for it. -/
structure FilledIn (policy : GasPolicy) (method : String) (contacts : List Contact)
    (t u : Record Json) : Prop where
  ordered : Record.Ordered t → Record.Ordered u
  others : ∀ key, key ≠ "from" → key ≠ "gas" → Record.get? u key = Record.get? t key
  kept : ∀ key, ¬ Missing t key → Record.get? u key = Record.get? t key
  unlimited : method ≠ "eth_call" → Record.get? u "gas" = Record.get? t "gas"
  sender : Missing t "from" →
    ∃ v, BeginsByFinding contacts v ∧ Record.get? u "from" = some v
  limit : method = "eth_call" → Missing t "gas" →
    ∃ estimate q, EndsAfterEstimate contacts estimate ∧ Quantity.ofJson? estimate = some q ∧
      Record.get? u "gas" = some (.str (policy.limit q).encode)

/-- A call that differs from the one that it was made for in what is filled in, and in nothing
else. -/
structure OnlyFilled (policy : GasPolicy) (c : Call) (contacts : List Contact) (d : Call) :
    Prop where
  length : d.params.length = c.params.length
  rest : d.params.tail = c.params.tail
  untouched : (∀ t rest, ¬ BringsTransaction c t rest) → d.params = c.params
  filled : ∀ t rest, BringsTransaction c t rest →
    ∃ u, d.params = .obj u :: rest ∧ FilledIn policy c.method contacts t u

theorem WithSender.filledIn {policy : GasPolicy} {method : String} {contacts : List Contact}
    {t u w : Record Json} (found : WithSender contacts t u)
    (limited : WithLimit policy method contacts u w) :
    FilledIn policy method contacts t w where
  ordered := limited.ordered ∘ found.ordered
  others key notSender notGas := by
    rw [limited.kept (.inl notGas), found.kept (.inl notSender)]
  kept key present := by
    have same : Record.get? u key = Record.get? t key := found.kept (.inr present)
    have present' : ¬ Missing u key := by rwa [Missing, same]
    rw [limited.kept (.inr (.inr present')), same]
  unlimited notCall := by
    rw [limited.kept (.inr (.inl notCall)), found.others "gas" (by decide)]
  sender missing := by
    obtain ⟨v, begins, sender⟩ := found.found missing
    exact ⟨v, begins, (limited.others "from" (by decide)).trans sender⟩
  limit call missing := limited.found call (found.missing_gas_iff.2 missing)

/-- No look-up goes by the name of a method that brings a transaction. -/
theorem SenderSearch.method_not_mem {t : Record Json} {ks : List Contact}
    {r : Except RpcError (Record Json)} (h : SenderSearch t ks r) :
    ∀ k ∈ ks, k.call.method ∉ senderMethods := by
  cases h <;> simp [senderMethods]

/-- No estimate is made for an estimate. -/
theorem LimitSearch.method_ne {policy : GasPolicy} {method : String} {t : Record Json}
    {ls : List Contact} {r : Except RpcError (Record Json)}
    (h : LimitSearch policy method t ls r) : ∀ k ∈ ls, k.call.method ≠ method := by
  cases h with
  | given => simp
  | refused limited | noQuantity limited | quantity limited =>
    rw [mem_gasMethods.1 limited]
    simp

/-- A search for a sender fails only where a look-up does. -/
theorem SenderSearch.exists_not_answered {t : Record Json} {ks : List Contact} {e : RpcError}
    (h : SenderSearch t ks (.error e)) : ∃ k ∈ ks, ¬ Answered k := by
  cases h <;> simp [Answered]

/-- A search for a gas limit fails only where there is no estimate. -/
theorem LimitSearch.exists_not_estimated {policy : GasPolicy} {method : String}
    {t : Record Json} {ls : List Contact} {e : RpcError}
    (h : LimitSearch policy method t ls (.error e)) :
    ∃ k ∈ ls, k.call.method = "eth_estimateGas" ∧ ¬ Estimated k := by
  cases h with
  | refused => simp [Estimated]
  | noQuantity limited missing useless => simp [Estimated, useless]

/-- If the look-ups are answered, and estimates by quantities, the call itself is made, once and
last, with the transaction filled in. -/
theorem Transmission.sent_of_answered {policy : GasPolicy} {method : String} {t : Record Json}
    {rest : List Json} {contacts : List Contact} {result : Answer}
    (h : Transmission policy method t rest contacts result) (sender : method ∈ senderMethods)
    (answered : ∀ k ∈ contacts, k.call.method ≠ method →
      Answered k ∧ (k.call.method = "eth_estimateGas" → Estimated k)) :
    ∃ lookups u, contacts = lookups ++ [⟨resend method rest u, result⟩] ∧
      (∀ k ∈ lookups, k.call.method ≠ method) ∧ FilledIn policy method contacts t u := by
  have searching : ∀ {ks r}, SenderSearch t ks r → ∀ k ∈ ks, k.call.method ≠ method := by
    rintro ks r searched k hk rfl
    exact searched.method_not_mem k hk sender
  cases h with
  | noSender searched =>
    obtain ⟨k, hk, unanswered⟩ := searched.exists_not_answered
    exact absurd (answered k hk (searching searched k hk)).1 unanswered
  | @noLimit ks ls u e searched limited =>
    obtain ⟨k, hk, estimate, useless⟩ := limited.exists_not_estimated
    have made := answered k (List.mem_append_right ks hk) (limited.method_ne k hk)
    exact absurd (made.2 estimate) useless
  | @sent ks ls u w searched limited =>
    refine ⟨ks ++ ls, w, (List.append_assoc ks ls _).symm, ?_, ?_⟩
    · intro k hk
      rcases List.mem_append.1 hk with hk | hk
      · exact searching searched k hk
      · exact limited.method_ne k hk
    · exact (searched.withSender _).filledIn (limited.withLimit ks _)

/-- The one contact that goes by the name of the method is the last, and it brings the transaction
filled in. -/
theorem Transmission.filledIn {policy : GasPolicy} {method : String} {t : Record Json}
    {rest : List Json} {contacts : List Contact} {result : Answer}
    (h : Transmission policy method t rest contacts result) (sender : method ∈ senderMethods)
    {k : Contact} (made : k ∈ contacts) (primary : k.call.method = method) :
    ∃ u, k.call = resend method rest u ∧ FilledIn policy method contacts t u := by
  have notSearching : ∀ {ks r}, SenderSearch t ks r → k ∉ ks := by
    intro ks r searched hk
    exact searched.method_not_mem k hk (primary ▸ sender)
  have notEstimating : ∀ {u ls r}, LimitSearch policy method u ls r → k ∉ ls := by
    intro u ls r limited hk
    exact limited.method_ne k hk primary
  cases h with
  | noSender searched => exact absurd made (notSearching searched)
  | noLimit searched limited =>
    rcases List.mem_append.1 made with made | made
    · exact absurd made (notSearching searched)
    · exact absurd made (notEstimating limited)
  | @sent ks ls u w searched limited =>
    rcases List.mem_append.1 made with made | made
    · exact absurd made (notSearching searched)
    rcases List.mem_append.1 made with made | made
    · exact absurd made (notEstimating limited)
    obtain rfl := List.mem_singleton.1 made
    refine ⟨w, rfl, ?_⟩
    exact (searched.withSender _).filledIn (limited.withLimit ks _)

/-- Whatever is forwarded under the name of the request is the request with its transaction filled
in. -/
theorem onlyFilled_of_forwarded (policy : GasPolicy) (c : Call) (backend : Backend)
    (earlier : List Call) :
    let o := (Layer.defaultFields policy c).run backend earlier
    ∀ k ∈ o.contacts, k.call.method = c.method → OnlyFilled policy c o.contacts k.call := by
  dsimp only
  intro k made primary
  cases brought : transaction? c with
  | none =>
    obtain ⟨a, contacts, -⟩ := run_of_no_transaction backend earlier policy brought
    rw [contacts] at made ⊢
    obtain rfl := List.mem_singleton.1 made
    refine ⟨rfl, rfl, fun _ => rfl, ?_⟩
    intro t rest brings
    rw [transaction?_eq_some_iff_brings.2 brings] at brought
    cases brought
  | some q =>
    obtain ⟨t, rest⟩ := q
    obtain ⟨sender, params⟩ := transaction?_eq_some_iff.1 brought
    obtain ⟨u, call, filled⟩ :=
      (transmission_run backend earlier policy brought).filledIn sender made primary
    rw [call]
    refine ⟨?_, ?_, ?_, ?_⟩
    · rw [params]
      rfl
    · rw [params]
      rfl
    · intro nothing
      exact absurd ⟨sender, params⟩ (nothing t rest)
    · intro t' rest' brings
      -- A call brings one transaction only.
      obtain ⟨same, rfl⟩ := List.cons.inj (params.symm.trans brings.2)
      obtain rfl := Json.obj.inj same
      exact ⟨u, rfl, filled⟩

/-- A null gas limit is made of the estimate, the sender is the first of the accounts, and the block
stays behind the transaction. -/
theorem onlyFilled_of_forwarded_call :
    let c : Call := ⟨"eth_call", [.obj [("gas", .null), ("to", .str "0x1")], .str "latest"]⟩
    let backend := Backend.ofScript [("eth_accounts", .ok (.arr [.str "0xa", .str "0xb"])),
      ("eth_estimateGas", .ok (.str "0x10"))]
    let o := (Layer.defaultFields GasPolicy.standard c).run backend []
    let sent : Call := ⟨"eth_call",
      [.obj [("from", .str "0xa"), ("gas", .str "0x20"), ("to", .str "0x1")], .str "latest"]⟩
    o.calls.getLast? = some sent ∧ OnlyFilled GasPolicy.standard c o.contacts sent := by
  intro c backend o sent
  have last : o.calls.getLast? = some sent := by decide +kernel
  obtain ⟨k, made, call⟩ := List.mem_map.1 (List.mem_of_getLast? last)
  have primary : k.call.method = c.method := by rw [call]
  have only := onlyFilled_of_forwarded GasPolicy.standard c backend [] k made primary
  rw [call] at only
  exact ⟨last, only⟩

end EthGateway.DefaultFields
