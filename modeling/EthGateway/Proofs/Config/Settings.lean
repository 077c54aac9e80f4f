import EthGateway.Config
import EthGateway.Proofs.Catalog.Loading
import EthGateway.Proofs.Steps
import EthGateway.Proofs.Text.LetterCase
import EthGateway.Proofs.Text.Unsigned

/-
# EthGateway.Proofs.Config.Settings -- what the text of a setting stands for

A dialect and a yes or no have words, and every text counts that is one of them in lower case
(`Named`). Ports and multipliers are unsigned numbers, each up to a largest one. Every reader accepts
exactly the texts that stand for something, and quotes a word that it does not know in lower case. A
variable that is not set stands for its default (`Setting`).

An environment is accepted if each of its settings can be read and the multiplier is not zero; the
configuration then has these settings (`ofEnvironment_eq_ok_iff`). So a configuration that a gateway
is started with never turns an estimate of gas into no gas at all.
-/

namespace EthGateway.Config

open Text.Unsigned (Spells Unread parse_eq_ok_iff parse_eq_error_iff)

/-! ## Words -/

/-- A character and what it is in lower case: the capitals of ASCII have small letters, and every
other character stays. -/
inductive Lowers : Char → Char → Prop
  | capital {k : Nat} (place : k < 26) :
      Lowers (Char.ofNat ('A'.toNat + k)) (Char.ofNat ('a'.toNat + k))
  | other {c : Char} (noCapital : ¬ ('A' ≤ c ∧ c ≤ 'Z')) : Lowers c c

/-- The text in lower case is the word. -/
def LowersTo (text word : String) : Prop := List.Forall₂ Lowers text.toList word.toList

/-- The words for each dialect. -/
def dialectWords : Dialect → List String
  | .node => ["node"]
  | .tester => ["tester", "eth_tester"]

/-- The words for yes and for no. -/
def flagWords : Bool → List String
  | true => ["1", "true", "yes", "on"]
  | false => ["0", "false", "no", "off"]

/-- The text is a word for something, but for capitals. -/
def Named {α : Type} (words : α → List String) (text : String) (x : α) : Prop :=
  ∃ word ∈ words x, LowersTo text word

theorem lowers_iff {c d : Char} : Lowers c d ↔ c.toLower = d := by
  constructor
  · rintro (place | noCapital)
    · have small : ∀ k < 26, (Char.ofNat (65 + k)).toLower = Char.ofNat (97 + k) := by decide
      exact small _ place
    · exact dif_neg noCapital
  · rintro rfl
    refine Text.Hex.toLower_cases (P := Lowers) ?_ ?_ c
    · intro k place
      have small : ∀ k < 26, (Char.ofNat (65 + k)).toLower = Char.ofNat (97 + k) := by decide
      rw [small k place]
      exact .capital place
    · intro c noCapital
      refine .other fun range => noCapital (decide_eq_true range)

theorem lowersTo_iff {text word : String} : LowersTo text word ↔ lowered text = word := by
  have chars : LowersTo text word ↔ text.toList.map Char.toLower = word.toList := by
    rw [LowersTo, ← List.forall₂_eq_eq_eq, List.forall₂_map_left_iff]
    exact ⟨fun h => h.imp fun _ _ => lowers_iff.1, fun h => h.imp fun _ _ => lowers_iff.2⟩
  rw [chars, lowered, ← String.toList_inj, String.toList_ofList]

theorem named_iff {α : Type} {words : α → List String} {text : String} {x : α} :
    Named words text x ↔ lowered text ∈ words x := by
  constructor
  · rintro ⟨word, listed, lowers⟩
    rw [lowersTo_iff.1 lowers]
    exact listed
  · intro listed
    exact ⟨_, listed, lowersTo_iff.2 rfl⟩

/-! ## The readers -/

section Readers

variable {text : String}

theorem readDialect_eq_ok_iff {d : Dialect} :
    readDialect text = .ok d ↔ Named dialectWords text d := by
  rw [named_iff, readDialect]
  split
  · next node => cases d <;> simp [node, dialectWords]
  · next notNode =>
    split
    · next tester => cases d <;> simp [notNode, tester, dialectWords]
    · next notTester => cases d <;> simp [notNode, not_or.1 notTester, dialectWords]

theorem readDialect_eq_error_iff {e : ConfigError} :
    readDialect text = .error e ↔
      ∃ word, LowersTo text word ∧ word ∉ ["node", "tester", "eth_tester"] ∧ .dialect word = e := by
  simp only [lowersTo_iff, exists_eq_left']
  rw [readDialect]
  split
  · next node => simp [node]
  · next notNode =>
    split
    · next tester => rcases tester with same | same <;> simp [same]
    · next notTester => simp [notNode, not_or.1 notTester]

theorem readFlag_eq_ok_iff {b : Bool} : readFlag text = .ok b ↔ Named flagWords text b := by
  have yesIs : flagWords true = yesWords := rfl
  have noIs : flagWords false = noWords := rfl
  have disjoint : ∀ word ∈ yesWords, word ∉ noWords := by decide
  rw [named_iff, readFlag]
  split
  · next yes => cases b <;> simp [yes, disjoint _ yes, yesIs, noIs]
  · next notYes =>
    split
    · next no => cases b <;> simp [notYes, no, yesIs, noIs]
    · next notNo => cases b <;> simp [notYes, notNo, yesIs, noIs]

theorem readFlag_eq_error_iff {e : ConfigError} :
    readFlag text = .error e ↔
      ∃ word, LowersTo text word ∧ word ∉ ["1", "true", "yes", "on", "0", "false", "no", "off"] ∧
        .filling word = e := by
  have both : ["1", "true", "yes", "on", "0", "false", "no", "off"] = yesWords ++ noWords := rfl
  simp only [lowersTo_iff, exists_eq_left', both, List.mem_append, not_or]
  rw [readFlag]
  split
  · next yes => simp [yes]
  · next notYes =>
    split
    · next no => simp [no]
    · next notNo => simp [notYes, notNo]

theorem readNumber_eq_ok_iff {largest : Nat} {fault : Text.UnsignedError → ConfigError} {n : Nat} :
    readNumber largest fault text = .ok n ↔ Spells text.toList n ∧ n ≤ largest := by
  rw [readNumber, mapError_eq_ok_iff, parse_eq_ok_iff (Nat.succ_pos largest)]
  exact and_congr_right' Nat.lt_succ_iff

theorem readNumber_eq_error_iff {largest : Nat} {fault : Text.UnsignedError → ConfigError}
    {e : ConfigError} :
    readNumber largest fault text = .error e ↔
      ∃ cause, Unread (largest + 1) text.toList cause ∧ fault cause = e := by
  rw [readNumber, mapError_eq_error_iff]
  exact exists_congr fun cause => and_congr_left' (parse_eq_error_iff (Nat.succ_pos largest))

end Readers

/-! ## One setting -/

/-- What the setting of a variable is: its default if the variable is not set, and else what its
text stands for. -/
inductive Setting {α : Type} (env : Environment) (variableName : String) (Means : String → α → Prop)
    (default : α) : α → Prop
  | absent (unset : env variableName = none) : Setting env variableName Means default default
  | given {text : String} {x : α} (set : env variableName = some text) (means : Means text x) :
      Setting env variableName Means default x

section Variables

variable {α : Type} {env : Environment} {variableName : String} {default : α}

theorem setting_eq_ok_iff {read : String → Except ConfigError α} {Means : String → α → Prop}
    (reads : ∀ text x, read text = .ok x ↔ Means text x) {x : α} :
    setting env variableName read default = .ok x ↔ Setting env variableName Means default x := by
  unfold setting
  constructor
  · intro accepted
    split at accepted
    · next text set => exact .given set ((reads text x).1 accepted)
    · next unset =>
      cases accepted
      exact .absent unset
  · rintro (unset | ⟨set, means⟩)
    · rw [unset]
    · rw [set]
      exact (reads _ _).2 means

theorem setting_eq_error_iff {read : String → Except ConfigError α} {e : ConfigError} :
    setting env variableName read default = .error e ↔
      ∃ text, env variableName = some text ∧ read text = .error e := by
  unfold setting
  cases env variableName with
  | none => exact ⟨nofun, nofun⟩
  | some text => simp

theorem exists_setting_iff {Means : String → α → Prop} :
    (∃ x, Setting env variableName Means default x) ↔
      ∀ text, env variableName = some text → ∃ x, Means text x := by
  constructor
  · rintro ⟨_, unset | ⟨set, means⟩⟩ text set'
    · rw [unset] at set'
      cases set'
    · rw [set] at set'
      cases set'
      exact ⟨_, means⟩
  · intro known
    cases set : env variableName with
    | none => exact ⟨default, .absent set⟩
    | some text =>
      obtain ⟨x, means⟩ := known text set
      exact ⟨x, .given set means⟩

end Variables

/-! ## The environments that are accepted -/

/-- Every setting of the configuration is the one that the environment has for it. -/
structure ReadFrom (env : Environment) (c : Config) : Prop where
  backendUrl : c.backendUrl = (env "BACKEND_RPC_URL").getD standard.backendUrl
  dialect : setting env "BACKEND_DIALECT" readDialect standard.dialect = .ok c.dialect
  proxyPort : setting env "PROXY_PORT" readPort standard.proxyPort = .ok c.proxyPort
  fillDefaultFields : setting env "FILL_DEFAULT_FIELDS" readFlag standard.fillDefaultFields
    = .ok c.fillDefaultFields
  gasMultiplier : setting env "GAS_ESTIMATE_MULTIPLIER" readMultiplier standard.gasMultiplier
    = .ok c.gasMultiplier
  positive : 0 < c.gasMultiplier
  schemaFile : c.schemaFile = schemaPath env
  logFilter : c.logFilter = (env "RUST_LOG").getD standard.logFilter

theorem ofEnvironment_eq_ok_iff {env : Environment} {c : Config} :
    ofEnvironment env = .ok c ↔ ReadFrom env c := by
  constructor
  · intro accepted
    unfold ofEnvironment at accepted
    obtain ⟨dialect, hdialect, accepted⟩ := bind_eq_ok_iff.1 accepted
    obtain ⟨port, hport, accepted⟩ := bind_eq_ok_iff.1 accepted
    obtain ⟨filling, hfilling, accepted⟩ := bind_eq_ok_iff.1 accepted
    obtain ⟨multiplier, hmultiplier, accepted⟩ := bind_eq_ok_iff.1 accepted
    split at accepted
    · cases accepted
    · next notZero =>
      cases accepted
      exact ⟨rfl, hdialect, hport, hfilling, hmultiplier, Nat.pos_of_ne_zero notZero, rfl, rfl⟩
  · intro h
    obtain ⟨url, dialect, port, filling, multiplier, path, log⟩ := c
    obtain ⟨rfl, hdialect, hport, hfilling, hmultiplier, positive, rfl, rfl⟩ := h
    unfold ofEnvironment
    rw [hdialect, hport, hfilling, hmultiplier]
    show (if multiplier = 0 then _ else _) = _
    rw [if_neg (Nat.ne_of_gt positive)]
    rfl

end EthGateway.Config
