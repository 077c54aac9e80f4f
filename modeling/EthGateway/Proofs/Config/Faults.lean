import EthGateway.Main
import EthGateway.Proofs.Config.Settings

/-
# EthGateway.Proofs.Config.Faults -- the environments that are refused, and with which error

An environment may have several faults, at most one for each of five checks (`Fault`). The checks
are made in the order of their places, and the configuration is read up to the first one that fails
(`ofEnvironment_eq_error_iff`): so an environment is refused exactly if it has a fault, and the
fault of the least place is the one that is reported (`refused_iff`).
-/

namespace EthGateway

open Text.Unsigned (Spells Unread)

/-- The place of its check. -/
def ConfigError.place : ConfigError → Nat
  | .dialect _ => 0
  | .proxyPort _ => 1
  | .filling _ => 2
  | .multiplier _ => 3
  | .zeroMultiplier => 4

namespace Config

/-- What is wrong with an environment: a word that is none of those for the setting, quoted in lower
case, a text that is no number of the setting's width, or the number zero. -/
inductive Fault (env : Environment) : ConfigError → Prop
  | dialect {text word : String} (set : env "BACKEND_DIALECT" = some text)
      (lowers : LowersTo text word) (unknown : word ∉ ["node", "tester", "eth_tester"]) :
      Fault env (.dialect word)
  | proxyPort {text : String} {cause : Text.UnsignedError} (set : env "PROXY_PORT" = some text)
      (unread : Unread 65536 text.toList cause) : Fault env (.proxyPort cause)
  | filling {text word : String} (set : env "FILL_DEFAULT_FIELDS" = some text)
      (lowers : LowersTo text word)
      (unknown : word ∉ ["1", "true", "yes", "on", "0", "false", "no", "off"]) :
      Fault env (.filling word)
  | multiplier {text : String} {cause : Text.UnsignedError}
      (set : env "GAS_ESTIMATE_MULTIPLIER" = some text)
      (unread : Unread (Nat.pow 2 64) text.toList cause) : Fault env (.multiplier cause)
  | zeroMultiplier {text : String} (set : env "GAS_ESTIMATE_MULTIPLIER" = some text)
      (zero : Spells text.toList 0) : Fault env .zeroMultiplier

/-- Every variable that is set has a text that stands for something. -/
structure Acceptable (env : Environment) : Prop where
  dialect : ∀ text, env "BACKEND_DIALECT" = some text →
    ∃ word ∈ ["node", "tester", "eth_tester"], LowersTo text word
  proxyPort : ∀ text, env "PROXY_PORT" = some text → ∃ n, Spells text.toList n ∧ n ≤ 65535
  filling : ∀ text, env "FILL_DEFAULT_FIELDS" = some text →
    ∃ word ∈ ["1", "true", "yes", "on", "0", "false", "no", "off"], LowersTo text word
  multiplier : ∀ text, env "GAS_ESTIMATE_MULTIPLIER" = some text →
    ∃ n, Spells text.toList n ∧ 1 ≤ n ∧ n ≤ Nat.pow 2 64 - 1

/-- The settings are what the environment says, and the defaults where it says nothing. -/
structure Configured (env : Environment) (c : Config) : Prop where
  backendUrl : c.backendUrl = (env "BACKEND_RPC_URL").getD "http://127.0.0.1:8545"
  dialect : Setting env "BACKEND_DIALECT" (Named dialectWords) .node c.dialect
  proxyPort : Setting env "PROXY_PORT" (fun text n => Spells text.toList n ∧ n ≤ 65535) 8546
    c.proxyPort
  filling : Setting env "FILL_DEFAULT_FIELDS" (Named flagWords) true c.fillDefaultFields
  multiplier : Setting env "GAS_ESTIMATE_MULTIPLIER"
    (fun text n => Spells text.toList n ∧ 1 ≤ n ∧ n ≤ Nat.pow 2 64 - 1) 2 c.gasMultiplier
  schemaFile : ∀ path, c.schemaFile = some path ↔ env "SCHEMA_FILE" = some path ∧ path ≠ ""
  logFilter : c.logFilter = (env "RUST_LOG").getD "info"

variable {env : Environment}

/-! ## What is accepted -/

theorem schemaPath_eq_some_iff {path : String} :
    schemaPath env = some path ↔ env "SCHEMA_FILE" = some path ∧ path ≠ "" := by
  rw [schemaPath, Option.filter_eq_some_iff, decide_eq_true_iff]

theorem exists_dialect_iff {text : String} :
    (∃ d, Named dialectWords text d) ↔
      ∃ word ∈ ["node", "tester", "eth_tester"], LowersTo text word := by
  constructor
  · rintro ⟨_ | _, word, listed, lowers⟩
    · exact ⟨word, List.mem_append_left ["tester", "eth_tester"] listed, lowers⟩
    · exact ⟨word, List.mem_append_right ["node"] listed, lowers⟩
  · rintro ⟨word, listed, lowers⟩
    rcases List.mem_cons.1 listed with rfl | listed
    · exact ⟨.node, _, List.mem_cons_self, lowers⟩
    · exact ⟨.tester, word, listed, lowers⟩

theorem exists_flag_iff {text : String} :
    (∃ b, Named flagWords text b) ↔
      ∃ word ∈ ["1", "true", "yes", "on", "0", "false", "no", "off"], LowersTo text word := by
  have both : ["1", "true", "yes", "on", "0", "false", "no", "off"] =
    flagWords true ++ flagWords false := rfl
  constructor
  · rintro ⟨_ | _, word, listed, lowers⟩
    · exact ⟨word, both ▸ List.mem_append_right _ listed, lowers⟩
    · exact ⟨word, both ▸ List.mem_append_left _ listed, lowers⟩
  · rintro ⟨word, listed, lowers⟩
    rcases List.mem_append.1 (both ▸ listed) with yes | no
    · exact ⟨true, word, yes, lowers⟩
    · exact ⟨false, word, no, lowers⟩

/-- A multiplier of zero can be read, but it is no setting. -/
theorem multiplier_eq_ok_iff {n : Nat} :
    setting env "GAS_ESTIMATE_MULTIPLIER" readMultiplier standard.gasMultiplier = .ok n ∧ 0 < n ↔
      Setting env "GAS_ESTIMATE_MULTIPLIER"
        (fun text n => Spells text.toList n ∧ 1 ≤ n ∧ n ≤ Nat.pow 2 64 - 1) 2 n := by
  have reads : ∀ text k, readMultiplier text = .ok k ↔
      Spells text.toList k ∧ k ≤ Nat.pow 2 64 - 1 := fun _ _ => readNumber_eq_ok_iff
  rw [setting_eq_ok_iff reads]
  constructor
  · rintro ⟨unset | ⟨set, spells, largest⟩, positive⟩
    · exact .absent unset
    · exact .given set ⟨spells, positive, largest⟩
  · rintro (unset | ⟨set, spells, positive, largest⟩)
    · exact ⟨.absent unset, by decide⟩
    · exact ⟨.given set ⟨spells, largest⟩, positive⟩

theorem configured_iff {c : Config} : Configured env c ↔ ReadFrom env c := by
  constructor
  · intro h
    obtain ⟨multiplier, positive⟩ := multiplier_eq_ok_iff.2 h.multiplier
    exact {
      backendUrl := h.backendUrl
      dialect := (setting_eq_ok_iff fun _ _ => readDialect_eq_ok_iff).2 h.dialect
      proxyPort := (setting_eq_ok_iff fun _ _ => readNumber_eq_ok_iff).2 h.proxyPort
      fillDefaultFields := (setting_eq_ok_iff fun _ _ => readFlag_eq_ok_iff).2 h.filling
      gasMultiplier := multiplier
      positive := positive
      schemaFile := Option.ext fun _ => (h.schemaFile _).trans schemaPath_eq_some_iff.symm
      logFilter := h.logFilter }
  · intro h
    exact {
      backendUrl := h.backendUrl
      dialect := (setting_eq_ok_iff fun _ _ => readDialect_eq_ok_iff).1 h.dialect
      proxyPort := (setting_eq_ok_iff fun _ _ => readNumber_eq_ok_iff).1 h.proxyPort
      filling := (setting_eq_ok_iff fun _ _ => readFlag_eq_ok_iff).1 h.fillDefaultFields
      multiplier := multiplier_eq_ok_iff.1 ⟨h.gasMultiplier, h.positive⟩
      schemaFile := fun _ => h.schemaFile ▸ schemaPath_eq_some_iff
      logFilter := h.logFilter }

theorem exists_configured_iff : (∃ c, Configured env c) ↔ Acceptable env := by
  constructor
  · rintro ⟨c, h⟩
    refine ⟨?_, ?_, ?_, ?_⟩
    · intro text set
      exact exists_dialect_iff.1 (exists_setting_iff.1 ⟨_, h.dialect⟩ text set)
    · exact exists_setting_iff.1 ⟨_, h.proxyPort⟩
    · intro text set
      exact exists_flag_iff.1 (exists_setting_iff.1 ⟨_, h.filling⟩ text set)
    · exact exists_setting_iff.1 ⟨_, h.multiplier⟩
  · intro h
    obtain ⟨dialect, hdialect⟩ := exists_setting_iff.2 fun text set =>
      exists_dialect_iff.2 (h.dialect text set)
    obtain ⟨port, hport⟩ := exists_setting_iff.2 h.proxyPort
    obtain ⟨filling, hfilling⟩ := exists_setting_iff.2 fun text set =>
      exists_flag_iff.2 (h.filling text set)
    obtain ⟨multiplier, hmultiplier⟩ := exists_setting_iff.2 h.multiplier
    exact ⟨⟨_, dialect, port, filling, multiplier, schemaPath env, _⟩, rfl, hdialect, hport,
      hfilling, hmultiplier, fun _ => schemaPath_eq_some_iff, rfl⟩

/-! ## One check after the other -/

/-- The error of a step that fails. -/
def fault? {α : Type} : Except ConfigError α → Option ConfigError
  | .ok _ => none
  | .error e => some e

/-- The error of the check at a place, if the check fails. -/
def check (env : Environment) : Nat → Option ConfigError
  | 0 => fault? (setting env "BACKEND_DIALECT" readDialect standard.dialect)
  | 1 => fault? (setting env "PROXY_PORT" readPort standard.proxyPort)
  | 2 => fault? (setting env "FILL_DEFAULT_FIELDS" readFlag standard.fillDefaultFields)
  | 3 => fault? (setting env "GAS_ESTIMATE_MULTIPLIER" readMultiplier standard.gasMultiplier)
  | 4 =>
    if setting env "GAS_ESTIMATE_MULTIPLIER" readMultiplier standard.gasMultiplier = .ok 0 then
      some .zeroMultiplier
    else none
  | _ => none

theorem fault?_eq_some_iff {α : Type} {x : Except ConfigError α} {e : ConfigError} :
    fault? x = some e ↔ x = .error e := by
  cases x <;> simp [fault?]

theorem fault?_of_ok {α : Type} {x : Except ConfigError α} {a : α} (passed : x = .ok a) :
    fault? x = none := by
  rw [passed]
  rfl

/-- The checks in front of a place do not fail. -/
def Clear (env : Environment) (place : Nat) : Prop := ∀ k < place, check env k = none

theorem Clear.succ {place : Nat} (h : Clear env place) (passed : check env place = none) :
    Clear env (place + 1) := by
  intro k before
  rcases Nat.lt_succ_iff_lt_or_eq.1 before with before | rfl
  · exact h k before
  · exact passed

/-- The first check that fails decides the error. -/
theorem clear_of_error {e : ConfigError} (refused : ofEnvironment env = .error e) :
    ∃ place, check env place = some e ∧ Clear env place := by
  -- Either the next check fails, or it passes and one more place is clear.
  have clear : Clear env 0 := nofun
  unfold ofEnvironment at refused
  rcases bind_eq_error_iff.1 refused with fault | ⟨dialect, read, refused⟩
  · exact ⟨0, fault?_eq_some_iff.2 fault, clear⟩
  replace clear := clear.succ (fault?_of_ok read)
  rcases bind_eq_error_iff.1 refused with fault | ⟨port, read, refused⟩
  · exact ⟨1, fault?_eq_some_iff.2 fault, clear⟩
  replace clear := clear.succ (fault?_of_ok read)
  rcases bind_eq_error_iff.1 refused with fault | ⟨filling, read, refused⟩
  · exact ⟨2, fault?_eq_some_iff.2 fault, clear⟩
  replace clear := clear.succ (fault?_of_ok read)
  rcases bind_eq_error_iff.1 refused with fault | ⟨multiplier, read, refused⟩
  · exact ⟨3, fault?_eq_some_iff.2 fault, clear⟩
  replace clear := clear.succ (fault?_of_ok read)
  split at refused
  · next zero =>
    cases refused
    exact ⟨4, if_pos (zero ▸ read), clear⟩
  · cases refused

theorem clear_of_ok {c : Config} (accepted : ofEnvironment env = .ok c) (place : Nat) :
    Clear env place := by
  have h := ofEnvironment_eq_ok_iff.1 accepted
  rintro (_ | _ | _ | _ | _ | k) -
  · exact fault?_of_ok h.dialect
  · exact fault?_of_ok h.proxyPort
  · exact fault?_of_ok h.fillDefaultFields
  · exact fault?_of_ok h.gasMultiplier
  · refine if_neg ?_
    rw [h.gasMultiplier, Except.ok.injEq]
    exact Nat.ne_of_gt h.positive
  · rfl

theorem ofEnvironment_eq_error_iff {e : ConfigError} :
    ofEnvironment env = .error e ↔ ∃ place, check env place = some e ∧ Clear env place := by
  refine ⟨clear_of_error, ?_⟩
  rintro ⟨place, fails, clear⟩
  cases outcome : ofEnvironment env with
  | ok c =>
    rw [clear_of_ok outcome (place + 1) place (Nat.lt_succ_self place)] at fails
    cases fails
  | error e' =>
    obtain ⟨place', fails', clear'⟩ := clear_of_error outcome
    -- Neither place is in front of the other, since the checks in front pass.
    rcases Nat.lt_trichotomy place place' with before | rfl | behind
    · rw [clear' place before] at fails
      cases fails
    · rw [fails] at fails'
      cases fails'
      rfl
    · rw [clear place' behind] at fails'
      cases fails'

/-! ## Faults and checks -/

theorem fault?_setting_eq_some_iff {α : Type} {variableName : String}
    {read : String → Except ConfigError α} {default : α} {e : ConfigError} :
    fault? (setting env variableName read default) = some e ↔
      ∃ text, env variableName = some text ∧ read text = .error e :=
  fault?_eq_some_iff.trans setting_eq_error_iff

/-- The check at the place of a fault fails with it. -/
theorem Fault.check {e : ConfigError} (fault : Fault env e) : check env e.place = some e := by
  cases fault with
  | dialect set lowers unknown =>
    exact fault?_setting_eq_some_iff.2
      ⟨_, set, readDialect_eq_error_iff.2 ⟨_, lowers, unknown, rfl⟩⟩
  | proxyPort set unread =>
    exact fault?_setting_eq_some_iff.2 ⟨_, set, readNumber_eq_error_iff.2 ⟨_, unread, rfl⟩⟩
  | filling set lowers unknown =>
    exact fault?_setting_eq_some_iff.2 ⟨_, set, readFlag_eq_error_iff.2 ⟨_, lowers, unknown, rfl⟩⟩
  | multiplier set unread =>
    exact fault?_setting_eq_some_iff.2 ⟨_, set, readNumber_eq_error_iff.2 ⟨_, unread, rfl⟩⟩
  | zeroMultiplier set zero =>
    have read :
        setting env "GAS_ESTIMATE_MULTIPLIER" readMultiplier standard.gasMultiplier = .ok 0 :=
      (setting_eq_ok_iff fun _ _ => readNumber_eq_ok_iff).2 (.given set ⟨zero, Nat.zero_le _⟩)
    exact if_pos read

/-- What a check fails with is a fault of its place. -/
theorem fault_of_check {place : Nat} {e : ConfigError} (fails : check env place = some e) :
    e.place = place ∧ Fault env e := by
  rcases place with _ | _ | _ | _ | _ | place
  · obtain ⟨text, set, refused⟩ := fault?_setting_eq_some_iff.1 fails
    obtain ⟨word, lowers, unknown, rfl⟩ := readDialect_eq_error_iff.1 refused
    exact ⟨rfl, .dialect set lowers unknown⟩
  · obtain ⟨text, set, refused⟩ := fault?_setting_eq_some_iff.1 fails
    obtain ⟨cause, unread, rfl⟩ := readNumber_eq_error_iff.1 refused
    exact ⟨rfl, .proxyPort set unread⟩
  · obtain ⟨text, set, refused⟩ := fault?_setting_eq_some_iff.1 fails
    obtain ⟨word, lowers, unknown, rfl⟩ := readFlag_eq_error_iff.1 refused
    exact ⟨rfl, .filling set lowers unknown⟩
  · obtain ⟨text, set, refused⟩ := fault?_setting_eq_some_iff.1 fails
    obtain ⟨cause, unread, rfl⟩ := readNumber_eq_error_iff.1 refused
    exact ⟨rfl, .multiplier set unread⟩
  · obtain ⟨zero, reported⟩ := Option.ite_none_right_eq_some.1 fails
    cases reported
    -- The default is not zero, so a multiplier of zero was given.
    generalize none : 0 = multiplier at zero
    rcases (setting_eq_ok_iff fun _ _ => readNumber_eq_ok_iff).1 zero with
      unset | ⟨set, spells, -⟩
    · cases none
    · subst none
      exact ⟨rfl, .zeroMultiplier set spells⟩
  · cases fails

/-- An error is reported exactly if it is a fault and no fault comes before it. -/
theorem refused_iff {e : ConfigError} :
    ofEnvironment env = .error e ↔ Fault env e ∧ ∀ e', Fault env e' → e.place ≤ e'.place := by
  rw [ofEnvironment_eq_error_iff]
  constructor
  · rintro ⟨place, fails, clear⟩
    obtain ⟨rfl, fault⟩ := fault_of_check fails
    refine ⟨fault, fun e' other => Nat.le_of_not_lt fun before => ?_⟩
    have passed := clear e'.place before
    rw [other.check] at passed
    cases passed
  · rintro ⟨fault, first⟩
    refine ⟨e.place, fault.check, fun place before => Option.eq_none_iff_forall_ne_some.2 ?_⟩
    intro e' fails
    obtain ⟨rfl, other⟩ := fault_of_check fails
    exact Nat.not_lt.2 (first e' other) before

/-- No variables count but those that the process looks up. -/
theorem ofEnvironment_congr {env' : Environment}
    (same : ∀ name ∈ variableNames, env' name = env name) :
    ofEnvironment env' = ofEnvironment env := by
  have url : env' "BACKEND_RPC_URL" = env "BACKEND_RPC_URL" := same _ (by decide)
  have dialect : env' "BACKEND_DIALECT" = env "BACKEND_DIALECT" := same _ (by decide)
  have port : env' "PROXY_PORT" = env "PROXY_PORT" := same _ (by decide)
  have filling : env' "FILL_DEFAULT_FIELDS" = env "FILL_DEFAULT_FIELDS" := same _ (by decide)
  have multiplier : env' "GAS_ESTIMATE_MULTIPLIER" = env "GAS_ESTIMATE_MULTIPLIER" :=
    same _ (by decide)
  have path : env' "SCHEMA_FILE" = env "SCHEMA_FILE" := same _ (by decide)
  have log : env' "RUST_LOG" = env "RUST_LOG" := same _ (by decide)
  unfold ofEnvironment setting schemaPath
  rw [url, dialect, port, filling, multiplier, path, log]

/-- An environment is accepted exactly if every text in it stands for something and the multiplier
is not zero, and the settings are then the ones that it says. Otherwise the fault whose check comes
first is reported. All of this depends on the variables that the process looks up and on no
others. -/
theorem ofEnvironment_outcome (env : Environment) :
    ((∃ c, ofEnvironment env = .ok c) ↔ Acceptable env) ∧
    (∀ c, ofEnvironment env = .ok c ↔ Configured env c) ∧
    (∀ e, ofEnvironment env = .error e ↔
      Fault env e ∧ ∀ e', Fault env e' → e.place ≤ e'.place) ∧
    ∀ env', (∀ name ∈ variableNames, env' name = env name) →
      ofEnvironment env' = ofEnvironment env := by
  have accepted : ∀ c, ofEnvironment env = .ok c ↔ Configured env c :=
    fun c => ofEnvironment_eq_ok_iff.trans configured_iff.symm
  refine ⟨?_, accepted, fun e => refused_iff, fun env' => ofEnvironment_congr⟩
  rw [← exists_configured_iff]
  exact exists_congr accepted

/-- The largest settings are accepted, with a sign, zeros in front and capitals. If every check
fails, the dialect is reported, and once it is known, the port. -/
theorem ofEnvironment_outcome_bounds :
    let largest : Environment := Record.get?
      [("BACKEND_DIALECT", "ETH_Tester"), ("FILL_DEFAULT_FIELDS", "oFF"),
       ("GAS_ESTIMATE_MULTIPLIER", "18446744073709551615"), ("PROXY_PORT", "+065535"),
       ("SCHEMA_FILE", "")]
    let wrong : String → Environment := fun dialect => Record.get?
      [("BACKEND_DIALECT", dialect), ("FILL_DEFAULT_FIELDS", "maybe"),
       ("GAS_ESTIMATE_MULTIPLIER", "+00"), ("PROXY_PORT", "65536")]
    Acceptable largest ∧
      Configured largest { standard with
        dialect := .tester, proxyPort := 65535, fillDefaultFields := false,
        gasMultiplier := 18446744073709551615 } ∧
      ofEnvironment (wrong "Parity") = .error (.dialect "parity") ∧
      ofEnvironment (wrong "NODE") = .error (.proxyPort .tooLarge) ∧
      Fault (wrong "NODE") (.filling "maybe") ∧ Fault (wrong "NODE") .zeroMultiplier := by
  intro largest wrong
  have settings : ofEnvironment largest = .ok { standard with
      dialect := .tester, proxyPort := 65535, fillDefaultFields := false,
      gasMultiplier := 18446744073709551615 } := by decide +kernel
  have unknown : check (wrong "Parity") 0 = some (.dialect "parity") := by decide +kernel
  have known : check (wrong "NODE") 0 = none := by decide +kernel
  have tooLarge : check (wrong "NODE") 1 = some (.proxyPort .tooLarge) := by decide +kernel
  have noFlag : check (wrong "NODE") 2 = some (.filling "maybe") := by decide +kernel
  have zero : check (wrong "NODE") 4 = some .zeroMultiplier := by decide +kernel
  refine ⟨(ofEnvironment_outcome largest).1.1 ⟨_, settings⟩,
    ((ofEnvironment_outcome largest).2.1 _).1 settings,
    ((ofEnvironment_outcome _).2.2.1 _).2 ⟨(fault_of_check unknown).2, fun _ _ => Nat.zero_le _⟩,
    ((ofEnvironment_outcome _).2.2.1 _).2 ⟨(fault_of_check tooLarge).2, ?_⟩,
    (fault_of_check noFlag).2, (fault_of_check zero).2⟩
  intro e other
  refine Nat.pos_of_ne_zero fun first => ?_
  have fails := other.check
  rw [first, known] at fails
  cases fails

end Config

end EthGateway
