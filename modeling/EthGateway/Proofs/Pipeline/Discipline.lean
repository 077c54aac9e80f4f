import EthGateway.Pipeline.Layer
import EthGateway.Proofs.Pipeline.Filling

/-
# EthGateway.Proofs.Pipeline.Discipline -- the calls that a stack of stages makes

Whatever stages are stacked, in whatever order and however often, the calls of one request are
look-ups that were answered, and then one more call. If the request has a result, that one was the
call of the request itself, and the result is its answer in the spelling of the stack. If the
request failed, that last call is the reason: the backend refused it, or it was an estimate whose
answer some default fields could not use. Nothing is called after a failure, and the method of the
request is called once at the most (`disciplined_stack`).

The invariant is `Trail`, by induction on the stages. Default fields make look-ups through all the
stages inside them, so a look-up may make look-ups in turn; what ends this is that their methods
descend (`rank`): a call asks for an estimate, an estimate for a sender, and a sender for nothing.
-/

namespace EthGateway

namespace Stage

/-! ## What a stack makes of names and of values -/

/-- The method that a stack calls for a name; every list of deprecated names has its say. -/
def resolved : List Stage → String → String
  | [], name => name
  | .deprecation aliases :: inners, name => resolved inners (Alias.canonical aliases name)
  | .defaultFields _ :: inners, name => resolved inners name
  | .formatting _ :: inners, name => resolved inners name

/-- What a stack hands out for a value that the backend has answered the call of a name with. -/
def returned : List Stage → String → Json → Json
  | [], _, v => v
  | .deprecation aliases :: inners, name, v => returned inners (Alias.canonical aliases name) v
  | .defaultFields _ :: inners, name, v => returned inners name v
  | .formatting f :: inners, name, v => (f.formatResult name (returned inners name v)).value

/-- All deprecated names that the stages know are the standard ones. -/
def StandardNames (stages : List Stage) : Prop :=
  ∀ aliases, .deprecation aliases ∈ stages → aliases = Alias.standard

theorem StandardNames.inners {s : Stage} {inners : List Stage} (h : StandardNames (s :: inners)) :
    StandardNames inners :=
  fun aliases hm => h aliases (List.mem_cons_of_mem s hm)

/-- A stage for deprecated names. -/
def isDeprecation : Stage → Bool
  | .deprecation _ => true
  | _ => false

/-- The method that a name stands for in front of a stack: deprecated names stand for their methods
if some stage of the stack knows them. -/
def canonical (stages : List Stage) (name : String) : String :=
  if stages.any isDeprecation then Alias.canonical Alias.standard name else name

/-- No method that a deprecated name stands for is a deprecated name. -/
theorem canonical_canonical (name : String) :
    Alias.canonical Alias.standard (Alias.canonical Alias.standard name)
      = Alias.canonical Alias.standard name := by
  cases found : Alias.resolve? Alias.standard name with
  | none => simp only [Alias.canonical, found]
  | some a =>
    have listed : a ∈ Alias.standard := List.mem_reverse.1 (List.mem_of_find?_eq_some found)
    simp only [Alias.canonical, found, Alias.resolve?_method listed]

theorem resolved_eq_canonical {stages : List Stage} (standard : StandardNames stages)
    (name : String) : resolved stages name = canonical stages name := by
  induction stages generalizing name with
  | nil => rfl
  | cons s inners ih =>
    have inside := ih standard.inners
    cases s with
    | deprecation aliases =>
      obtain rfl := standard aliases List.mem_cons_self
      rw [resolved, inside, canonical, canonical, List.any_cons]
      split
      · exact canonical_canonical name
      · rfl
    | defaultFields policy => exact inside name
    | formatting f => exact inside name

theorem resolved_of_not_alias {stages : List Stage} (standard : StandardNames stages)
    {name : String} (h : Alias.resolve? Alias.standard name = none) :
    resolved stages name = name := by
  have itself : Alias.canonical Alias.standard name = name := by rw [Alias.canonical, h]
  rw [resolved_eq_canonical standard, canonical, itself, ite_self]

/-! ## Look-ups and the last call -/

/-- The place of a method in the order of look-ups: those for a method are for methods below it. -/
def rank (method : String) : Nat :=
  if method = "eth_coinbase" ∨ method = "eth_accounts" then 0
  else if method = "eth_estimateGas" then 1
  else 2

/-- A call that was answered, of a method below a rank. -/
structure IsLookup (below : Nat) (k : Contact) : Prop where
  answered : ∃ v, k.answer = .ok v
  rank_lt : rank k.call.method < below

theorem IsLookup.mono {r s : Nat} (h : r ≤ s) {k : Contact} (hk : IsLookup r k) : IsLookup s k :=
  ⟨hk.answered, Nat.lt_of_lt_of_le hk.rank_lt h⟩

/-- Why a request fails whose last call this is: the call itself failed, or it was an estimate and
the default fields in front of some stages were handed a value for it that is no quantity. -/
inductive Cause (stages : List Stage) (last : Contact) (e : RpcError) : Prop where
  | answered (failed : last.answer = .error e)
  | refused (outers : List Stage) (policy : GasPolicy) (inners : List Stage) (v : Json)
      (place : stages = outers ++ .defaultFields policy :: inners)
      (estimate : last.call.method = "eth_estimateGas") (given : last.answer = .ok v)
      (noQuantity : Quantity.ofJson? (returned inners "eth_estimateGas" v) = none)
      (error : e = .invalidQuantity
        ("eth_estimateGas returned " ++ (returned inners "eth_estimateGas" v).compress))

theorem Cause.outwards {s : Stage} {inners : List Stage} {last : Contact} {e : RpcError}
    (h : Cause inners last e) : Cause (s :: inners) last e := by
  cases h with
  | answered failed => exact .answered failed
  | refused outers policy inners v place estimate given noQuantity error =>
    exact .refused (s :: outers) policy inners v (congrArg (s :: ·) place) estimate given
      noQuantity error

/-- How a run may go: it ends with a value after calls that are as they should be for one, or it
fails after look-ups and one call that is the reason. -/
def Course {α : Type} (stages : List Stage) (below : Nat) (done : List Contact → α → Prop)
    (o : Outcome (Except RpcError α)) : Prop :=
  match o.result with
  | .ok a => done o.contacts a
  | .error e => ∃ lookups last, o.contacts = lookups ++ [last] ∧
      (∀ k ∈ lookups, IsLookup below k) ∧ Cause stages last e

/-- The calls of a search that found something are look-ups. -/
def Found {α : Type} (below : Nat) (contacts : List Contact) (_ : α) : Prop :=
  ∀ k ∈ contacts, IsLookup below k

/-- The calls of a request that has a result are look-ups, and then its own call, whose answer it
hands out. -/
def Served (stages : List Stage) (name : String) (contacts : List Contact) (w : Json) : Prop :=
  ∃ lookups last v, contacts = lookups ++ [last] ∧
    (∀ k ∈ lookups, IsLookup (rank (resolved stages name)) k) ∧
    last.call.method = resolved stages name ∧ last.answer = .ok v ∧ w = returned stages name v

/-- The run of a search for something that a request needs. -/
abbrev Search {α : Type} (stages : List Stage) (below : Nat) (o : Outcome (Except RpcError α)) :
    Prop :=
  Course stages below (Found below) o

/-- The run of a request for a name. -/
abbrev Trail (stages : List Stage) (name : String) (o : Outcome Answer) : Prop :=
  Course stages (rank (resolved stages name)) (Served stages name) o

/-! ## Runs in sequence -/

/-- A property of calls that look-ups in front of them do not touch. -/
def KeptByLookups {α : Type} (below : Nat) (done : List Contact → α → Prop) : Prop :=
  ∀ lookups contacts a, (∀ k ∈ lookups, IsLookup below k) → done contacts a →
    done (lookups ++ contacts) a

section Sequence

variable {α β : Type} {stages : List Stage} {below : Nat}

theorem keptByLookups_found : KeptByLookups below (Found (α := α) below) := by
  intro lookups contacts a early found
  exact List.forall_mem_append.2 ⟨early, found⟩

theorem keptByLookups_served (stages : List Stage) (name : String) :
    KeptByLookups (rank (resolved stages name)) (Served stages name) := by
  rintro front contacts w early ⟨lookups, last, v, rfl, others, served⟩
  refine ⟨front ++ lookups, last, v, ?_, ?_, served⟩
  · rw [List.append_assoc]
  · exact List.forall_mem_append.2 ⟨early, others⟩

variable {done : List Contact → β → Prop} (kept : KeptByLookups below done)
include kept

theorem Course.after {o : Outcome α} (lookups : ∀ k ∈ o.contacts, IsLookup below k)
    {p : Outcome (Except RpcError β)} (h : Course stages below done p) :
    Course stages below done (o.followedBy p) := by
  unfold Course at h ⊢
  rw [Outcome.result_followedBy, Outcome.contacts_followedBy]
  cases result : p.result with
  | ok b =>
    rw [result] at h
    exact kept _ _ b lookups h
  | error e =>
    rw [result] at h
    obtain ⟨others, last, contacts, early, cause⟩ := h
    refine ⟨o.contacts ++ others, last, ?_, ?_, cause⟩
    · rw [contacts, List.append_assoc]
    · exact List.forall_mem_append.2 ⟨lookups, early⟩

/-- A search and what comes after it, if it comes to that. -/
theorem course_bind {backend : Backend} {x : Exchange (Except RpcError α)}
    {f : α → Exchange (Except RpcError β)}
    (first : ∀ earlier, Search stages below (x.run backend earlier))
    (next : ∀ a earlier, Course stages below done ((f a).run backend earlier))
    (earlier : List Call) :
    Course stages below done ((x >>= Attempt.orStop f).run backend earlier) := by
  have searched := first earlier
  rw [Attempt.run_bind_orStop]
  unfold Search Course at searched
  cases result : (x.run backend earlier).result with
  | ok a =>
    rw [result] at searched
    exact Course.after kept searched (next a _)
  | error e =>
    rw [result] at searched
    exact searched

end Sequence

/-! ## One stage in front of others -/

/-- A request to the stages inside is a search if it is for a method of lower rank. -/
theorem Course.search {s : Stage} {inners : List Stage} {name : String} {o : Outcome Answer}
    {below : Nat} (h : Trail inners name o) (lt : rank (resolved inners name) < below) :
    Search (s :: inners) below o := by
  have lower : ∀ k, IsLookup (rank (resolved inners name)) k → IsLookup below k :=
    fun k hk => hk.mono (Nat.le_of_lt lt)
  unfold Search Course
  unfold Trail Course at h
  cases result : o.result with
  | ok w =>
    rw [result] at h
    obtain ⟨lookups, last, v, contacts, early, own, answered, -⟩ := h
    show ∀ k ∈ o.contacts, IsLookup below k
    rw [contacts]
    refine List.forall_mem_append.2 ⟨fun k hk => lower k (early k hk), ?_⟩
    intro k hk
    obtain rfl := List.mem_singleton.1 hk
    exact ⟨⟨v, answered⟩, own ▸ lt⟩
  | error e =>
    rw [result] at h
    obtain ⟨lookups, last, contacts, early, cause⟩ := h
    exact ⟨lookups, last, contacts, fun k hk => lower k (early k hk), cause.outwards⟩

/-- A stage that sends one call on, and hands out what the stages inside hand out or something made
of it. -/
theorem Course.outwards {s : Stage} {inners : List Stage} {name sent : String}
    {o p : Outcome Answer} (h : Trail inners sent o)
    (method : resolved (s :: inners) name = resolved inners sent)
    (contacts : p.contacts = o.contacts)
    (failed : ∀ e, o.result = .error e → p.result = .error e)
    (handed : ∀ v, o.result = .ok (returned inners sent v) →
      p.result = .ok (returned (s :: inners) name v)) : Trail (s :: inners) name p := by
  unfold Trail Course at h ⊢
  rw [contacts, method]
  cases result : o.result with
  | ok w =>
    rw [result] at h
    obtain ⟨lookups, last, v, same, early, own, answered, rfl⟩ := h
    rw [handed v result]
    exact ⟨lookups, last, v, same, method ▸ early, own.trans method.symm, answered, rfl⟩
  | error e =>
    rw [result] at h
    obtain ⟨lookups, last, same, early, cause⟩ := h
    rw [failed e result]
    exact ⟨lookups, last, same, early, cause.outwards⟩

section Steps

variable {inners : List Stage} {inner : Layer} {backend : Backend}
  (inside : ∀ c earlier, Trail inners c.method ((inner c).run backend earlier))
include inside

theorem trail_deprecation (aliases : List Alias) (c : Call) (earlier : List Call) :
    Trail (.deprecation aliases :: inners) c.method
      ((Layer.around (.deprecation aliases) inner c).run backend earlier) := by
  have sent : ∀ d : Call, Alias.canonical aliases c.method = d.method → ∀ p : Outcome Answer,
      p.contacts = ((inner d).run backend earlier).contacts →
      p.result = ((inner d).run backend earlier).result →
      Trail (.deprecation aliases :: inners) c.method p := by
    intro d name p contacts result
    refine (inside d earlier).outwards ?_ contacts ?_ ?_
    · rw [resolved, name]
    · intro e failed
      rw [result, failed]
    · intro v given
      rw [result, given, returned, name]
  rw [Layer.around_deprecation]
  cases found : Alias.resolve? aliases c.method with
  | none =>
    have name : Alias.canonical aliases c.method = c.method := by rw [Alias.canonical, found]
    exact sent c name _ rfl rfl
  | some a =>
    have name : Alias.canonical aliases c.method = a.method := by rw [Alias.canonical, found]
    exact sent ⟨a.method, c.params⟩ name _ rfl rfl

theorem trail_formatting (f : Formatting) (c : Call) (earlier : List Call) :
    Trail (.formatting f :: inners) c.method
      ((Layer.around (.formatting f) inner c).run backend earlier) := by
  rw [Layer.run_around_formatting]
  refine (inside (f.received c) earlier).outwards rfl rfl ?_ ?_
  · intro e failed
    show (f.answered c.method _).value = _
    rw [failed]
    rfl
  · intro v given
    show (f.answered c.method _).value = _
    rw [given]
    rfl

variable (standard : StandardNames inners)
include standard

/-- The look-up of a sender is a search below every method that a sender is looked up for. -/
theorem search_guessSender (policy : GasPolicy) {below : Nat} (positive : 0 < below)
    (earlier : List Call) :
    Search (.defaultFields policy :: inners) below
      ((Attempt.against inner DefaultFields.guessSender).run backend earlier) := by
  -- Both look-ups have the lowest rank, so they are below every method.
  have ask : ∀ method, Alias.resolve? Alias.standard method = none → rank method = 0 →
      ∀ earlier, Search (.defaultFields policy :: inners) below
        ((inner ⟨method, []⟩).run backend earlier) := by
    intro method notAlias lowest earlier
    refine (inside ⟨method, []⟩ earlier).search ?_
    rw [resolved_of_not_alias standard notAlias, lowest]
    exact positive
  rw [DefaultFields.against_guessSender]
  refine course_bind keptByLookups_found (ask "eth_coinbase" (by decide) (by decide)) ?_ earlier
  intro coinbase earlier
  split
  · refine course_bind keptByLookups_found (ask "eth_accounts" (by decide) (by decide)) ?_ earlier
    intro accounts earlier k hk
    exact absurd hk List.not_mem_nil
  · intro k hk
    exact absurd hk List.not_mem_nil

/-- An estimate that is no quantity is the reason of the failure; any other is a look-up. -/
theorem trail_estimate (policy : GasPolicy) {name : String}
    (above : 1 < rank (resolved inners name)) (t : Record Json) {f : Json → Exchange Answer}
    (next : ∀ gas earlier,
      Trail (.defaultFields policy :: inners) name ((f gas).run backend earlier))
    (earlier : List Call) :
    Trail (.defaultFields policy :: inners) name
      ((inner ⟨"eth_estimateGas", [.obj t]⟩ >>= Attempt.orStop fun estimate =>
        Attempt.orStop f (DefaultFields.gasOfEstimate policy estimate)).run backend earlier) := by
  have own : resolved inners "eth_estimateGas" = "eth_estimateGas" :=
    resolved_of_not_alias standard (by decide)
  have estimated := inside ⟨"eth_estimateGas", [.obj t]⟩ earlier
  have lower : rank (resolved inners "eth_estimateGas") < rank (resolved inners name) := by
    rw [own]
    exact above
  have searched := estimated.search (s := .defaultFields policy) lower
  rw [Attempt.run_bind_orStop]
  unfold Search Course at searched
  unfold Trail Course at estimated
  generalize (inner ⟨"eth_estimateGas", [.obj t]⟩).run backend earlier = o at *
  cases result : o.result with
  | error e =>
    rw [result] at searched
    exact searched
  | ok w =>
    rw [result] at searched estimated
    dsimp only
    cases quantity : Quantity.ofJson? w with
    | some q =>
      simp only [DefaultFields.gasOfEstimate, quantity, Attempt.orStop]
      exact Course.after (keptByLookups_served _ name) searched (next _ _)
    | none =>
      simp only [DefaultFields.gasOfEstimate, quantity, Attempt.orStop, Exchange.run_done]
      -- The last contact of the estimate is the last one of all, although it was answered.
      obtain ⟨lookups, last, v, contacts, early, method, answered, rfl⟩ := estimated
      refine ⟨lookups, last, ?_, ?_, ?_⟩
      · rw [Outcome.contacts_followedBy, List.append_nil, contacts]
      · intro k hk
        refine searched k ?_
        rw [contacts]
        exact List.mem_append_left _ hk
      · exact .refused [] policy inners v rfl (method.trans own) answered quantity rfl

theorem trail_defaultFields (policy : GasPolicy) (c : Call) (earlier : List Call) :
    Trail (.defaultFields policy :: inners) c.method
      ((Layer.around (.defaultFields policy) inner c).run backend earlier) := by
  have forwarded : ∀ c earlier,
      Trail (.defaultFields policy :: inners) c.method ((inner c).run backend earlier) := by
    intro c earlier
    exact (inside c earlier).outwards rfl rfl (fun _ failed => failed) (fun _ given => given)
  rw [Layer.around_defaultFields]
  cases brought : DefaultFields.transaction? c with
  | none => exact forwarded c earlier
  | some q =>
    obtain ⟨t, rest⟩ := q
    have sender := (DefaultFields.transaction?_eq_some_iff.1 brought).1
    have known : ∀ m ∈ DefaultFields.senderMethods,
        Alias.resolve? Alias.standard m = none ∧ 0 < rank m := by decide
    have own : resolved inners c.method = c.method :=
      resolved_of_not_alias standard (known c.method sender).1
    have limited : ∀ t earlier, Trail (.defaultFields policy :: inners) c.method
        ((Attempt.against inner (DefaultFields.fillGas policy c.method t) >>=
          Attempt.orStop fun t => inner (DefaultFields.resend c.method rest t)).run
            backend earlier) := by
      intro t earlier
      rw [DefaultFields.against_fillGas_orStop]
      split
      · next h =>
        -- Only `eth_call` gets a limit, and it stands above the estimate.
        have above : ∀ m ∈ DefaultFields.gasMethods, 1 < rank m := by decide
        have limit := List.contains_iff_mem.1 (Bool.and_eq_true_iff.1 h).1
        have lower : 1 < rank (resolved inners c.method) := by
          rw [own]
          exact above c.method limit
        refine trail_estimate inside standard policy lower t ?_ earlier
        intro gas earlier
        exact forwarded (DefaultFields.resend c.method rest _) earlier
      · exact forwarded (DefaultFields.resend c.method rest t) earlier
    dsimp only
    rw [DefaultFields.against_fill_orStop, DefaultFields.against_fillSender_orStop]
    split
    · have positive : 0 < rank (resolved inners c.method) := by
        rw [own]
        exact (known c.method sender).2
      refine course_bind (keptByLookups_served _ c.method)
        (search_guessSender inside standard policy positive) ?_ earlier
      intro sender earlier
      exact limited _ earlier
    · exact limited t earlier

end Steps

/-! ## A whole stack -/

theorem trail_stack {stages : List Stage} (standard : StandardNames stages) (backend : Backend)
    (c : Call) (earlier : List Call) :
    Trail stages c.method ((Layer.stack (stages.map Stage.layer) c).run backend earlier) := by
  induction stages generalizing c earlier with
  | nil =>
    -- Without a stage the call itself is the only contact.
    have run : (Layer.stack [] c).run backend earlier
        = ⟨[⟨c, (backend earlier c).value⟩], (backend earlier c).notices ++ [],
            (backend earlier c).value⟩ := rfl
    have nothing : ∀ k ∈ ([] : List Contact), IsLookup (rank (resolved [] c.method)) k :=
      fun _ => nofun
    unfold Trail Course
    rw [List.map_nil, run]
    dsimp only
    cases answer : (backend earlier c).value with
    | ok w => exact ⟨[], _, w, rfl, nothing, rfl, rfl, rfl⟩
    | error e => exact ⟨[], _, rfl, nothing, .answered rfl⟩
  | cons s inners ih =>
    have inside := fun c earlier => ih standard.inners c earlier
    rw [List.map_cons, Layer.stack]
    cases s with
    | deprecation aliases => exact trail_deprecation inside aliases c earlier
    | defaultFields policy => exact trail_defaultFields inside standard.inners policy c earlier
    | formatting f => exact trail_formatting inside f c earlier

/-- Every request ends with a call that is its own or the reason of its failure. -/
theorem Course.exists_last {stages : List Stage} {name : String} {o : Outcome Answer}
    (h : Trail stages name o) :
    ∃ lookups last, o.contacts = lookups ++ [last] ∧
      (∀ k ∈ lookups, IsLookup (rank (resolved stages name)) k) ∧
      (∀ e, o.result = .error e → Cause stages last e) ∧
      ∀ w, o.result = .ok w →
        last.call.method = resolved stages name ∧ ∃ v, last.answer = .ok v := by
  unfold Trail Course at h
  cases result : o.result with
  | ok w =>
    rw [result] at h
    obtain ⟨lookups, last, v, contacts, early, own, answered, -⟩ := h
    exact ⟨lookups, last, contacts, early, nofun, fun _ _ => ⟨own, v, answered⟩⟩
  | error e =>
    rw [result] at h
    obtain ⟨lookups, last, contacts, early, cause⟩ := h
    refine ⟨lookups, last, contacts, early, ?_, nofun⟩
    intro e' same
    cases same
    exact cause

/-! ## What a caller can rely on -/

/-- What the calls of a request for a name keep to. -/
structure Disciplined (stages : List Stage) (name : String) (o : Outcome Answer) : Prop where
  /-- Nothing is called after a call that failed. -/
  stops : ∀ before k after e, o.contacts = before ++ k :: after → k.answer = .error e → after = []
  /-- The last call is the reason of a failure. -/
  cause : ∀ e, o.result = .error e →
    ∃ before last, o.contacts = before ++ [last] ∧ Cause stages last e
  /-- A request that has a result made calls that were all answered, and the last of them is the one
  call of its own method. -/
  answered : ∀ w, o.result = .ok w →
    (∀ k ∈ o.contacts, ∃ v, k.answer = .ok v) ∧
    (∃ before last, o.contacts = before ++ [last] ∧ last.call.method = canonical stages name) ∧
    (o.calls.countP fun d => d.method = canonical stages name) = 1
  /-- A request that failed called its own method at most once, and last. -/
  failed : ∀ e, o.result = .error e →
    (o.calls.countP fun d => d.method = canonical stages name) ≤ 1 ∧
    ∀ before k after, o.contacts = before ++ k :: after →
      k.call.method = canonical stages name → after = []

/-- All but the last of some calls are before it. -/
theorem eq_nil_or_mem_of_append_singleton {α : Type} {front before after : List α} {a b : α}
    (h : front ++ [a] = before ++ b :: after) : after = [] ∨ b ∈ front := by
  rcases List.eq_nil_or_concat after with rfl | ⟨between, c, rfl⟩
  · exact .inl rfl
  · right
    rw [List.concat_eq_append, ← List.cons_append, ← List.append_assoc] at h
    rw [(List.append_inj' h rfl).1]
    exact List.mem_append_right before List.mem_cons_self

/-- A request is over with the first call that fails, and comes to the error of this call. -/
theorem Course.of_failed {stages : List Stage} {name : String} {o : Outcome Answer}
    (h : Trail stages name o) {before after : List Contact} {k : Contact}
    (contacts : o.contacts = before ++ k :: after) {e : RpcError} (failed : k.answer = .error e) :
    after = [] ∧ o.result = .error e ∧ ∀ b ∈ before, ∃ v, b.answer = .ok v := by
  obtain ⟨lookups, last, whole, early, cause, own⟩ := h.exists_last
  have split := whole.symm.trans contacts
  obtain rfl : after = [] := by
    rcases eq_nil_or_mem_of_append_singleton split with nothing | hk
    · exact nothing
    · obtain ⟨v, answered⟩ := (early k hk).answered
      rw [answered] at failed
      cases failed
  obtain ⟨rfl, same⟩ := List.append_inj' split rfl
  obtain rfl := List.singleton_inj.1 same
  refine ⟨rfl, ?_, fun b hb => (early b hb).answered⟩
  cases result : o.result with
  | ok w =>
    obtain ⟨-, v, answered⟩ := own w result
    rw [answered] at failed
    cases failed
  | error e' =>
    -- An estimate that was of no use was answered, so it is no failed call.
    cases cause e' result with
    | answered reason => exact reason.symm.trans failed
    | refused _ _ _ v _ _ given =>
      rw [given] at failed
      cases failed

/-- Every stack of stages is disciplined, over every backend and from every state of it. -/
theorem disciplined_stack (stages : List Stage) (standard : StandardNames stages) (c : Call)
    (backend : Backend) (earlier : List Call) :
    Disciplined stages c.method
      ((Layer.stack (stages.map Stage.layer) c).run backend earlier) := by
  obtain ⟨lookups, last, contacts, early, cause, own⟩ :=
    (trail_stack standard backend c earlier).exists_last
  rw [resolved_eq_canonical standard] at early own
  generalize (Layer.stack (stages.map Stage.layer) c).run backend earlier = o at *
  have others : ∀ k ∈ lookups, k.call.method ≠ canonical stages c.method := by
    intro k hk same
    have lt := (early k hk).rank_lt
    rw [same] at lt
    exact Nat.lt_irrefl _ lt
  -- The look-ups do not count, so the last call alone decides.
  have count : (o.calls.countP fun d => d.method = canonical stages c.method)
      = if last.call.method = canonical stages c.method then 1 else 0 := by
    have none : lookups.countP (fun k => k.call.method = canonical stages c.method) = 0 :=
      List.countP_eq_zero.2 fun k hk => by simpa using others k hk
    rw [Outcome.calls, List.countP_map, contacts, List.countP_append, List.countP_singleton]
    simp [Function.comp_def, none]
  refine ⟨?_, ?_, ?_, ?_⟩
  · intro before k after e split failed
    rcases eq_nil_or_mem_of_append_singleton (contacts.symm.trans split) with nothing | hk
    · exact nothing
    · obtain ⟨v, answered⟩ := (early k hk).answered
      rw [answered] at failed
      cases failed
  · intro e result
    exact ⟨lookups, last, contacts, cause e result⟩
  · intro w result
    obtain ⟨own, v, answered⟩ := own w result
    refine ⟨?_, ⟨lookups, last, contacts, own⟩, ?_⟩
    · intro k hk
      rw [contacts] at hk
      rcases List.mem_append.1 hk with hk | hk
      · exact (early k hk).answered
      · obtain rfl := List.mem_singleton.1 hk
        exact ⟨v, answered⟩
    · rw [count, if_pos own]
  · intro e result
    refine ⟨?_, ?_⟩
    · rw [count]
      split <;> omega
    · intro before k after split own
      rcases eq_nil_or_mem_of_append_singleton (contacts.symm.trans split) with nothing | hk
      · exact nothing
      · exact absurd own (others k hk)

/-- Two stages of default fields, one in front of the other, over a backend without accounts: each
looks for a sender again, and the estimate is called before the call. -/
theorem disciplined_two_defaultFields :
    let stages : List Stage := [.defaultFields .standard, .deprecation Alias.standard,
      .defaultFields .standard]
    let c : Call := ⟨"eth_call", [.obj []]⟩
    let backend := Backend.ofScript [("eth_estimateGas", .ok (.str "0x5208"))]
    let o := (Layer.stack (stages.map Stage.layer) c).run backend []
    StandardNames stages ∧ Disciplined stages c.method o ∧
      o.calls.map Call.method = ["eth_coinbase", "eth_accounts", "eth_coinbase", "eth_accounts",
        "eth_estimateGas", "eth_coinbase", "eth_accounts", "eth_call"] := by
  have standard : StandardNames [.defaultFields .standard, .deprecation Alias.standard,
      .defaultFields .standard] := by
    intro aliases h
    simpa using h
  exact ⟨standard, disciplined_stack _ standard _ _ [], by decide +kernel⟩

end Stage

end EthGateway
