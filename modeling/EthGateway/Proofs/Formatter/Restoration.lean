import EthGateway.Proofs.Formatter.Coverage
import EthGateway.Proofs.Normalization.Stability

/-
# EthGateway.Proofs.Formatter.Restoration -- a record that goes out and comes back

The chain for results changes text in the places of quantities and nothing else
(`Chain.normalize_result_of_rests`). After the chain for arguments it comes to what it would have
come to without it, if the kind is one of quantities, at any depth of arrays
(`Chain.normalize_result_request`): lists of another shape, numbers that are no quantities and text
that was hexadecimal before are no exceptions. So a value without text comes back as it was, every
number in it digit for digit, while text that spells a quantity comes back as an integer.

A record goes out as the first argument of a method whose schema is by fields, and comes back as a
result of the same method. The fields of other kinds than those of quantities are then as they went
out, and the fields that the schema does not name have never changed. A field of quantities, alone
or in arrays, is as if it had come back without ever going out: numbers are restored digit for
digit, and text that spells a quantity is an integer (`result_inverts_request`).

For this text it is not true that the field is as it went out, since the chain for arguments leaves
it alone (`not_asSent_hex_gas`).
-/

namespace EthGateway

/-! ## Values -/

namespace Json

/-- Some part of the value is a string. -/
inductive HasString : Json → Prop
  | str {s : String} : HasString (.str s)
  | item {items : List Json} {v : Json} (place : v ∈ items) (inside : HasString v) :
      HasString (.arr items)
  | member {members : List (String × Json)} {m : String × Json} (place : m ∈ members)
      (inside : HasString m.2) : HasString (.obj members)

@[simp] theorem not_hasString_num (n : Numeral) : ¬ HasString (.num n) := nofun

@[simp] theorem hasString_arr_iff {items : List Json} :
    HasString (.arr items) ↔ ∃ v ∈ items, v.HasString := by
  constructor
  · rintro (_ | ⟨place, inside⟩)
    exact ⟨_, place, inside⟩
  · rintro ⟨v, place, inside⟩
    exact .item place inside

theorem hexToInteger_of_no_string {v : Json} (h : ¬ v.HasString) : v.hexToInteger = v := by
  cases v with
  | str s => exact absurd .str h
  | _ => rfl

end Json

theorem Noted.each_of_pure {α : Type} {f : α → Noted α} {as : List α}
    (h : ∀ a ∈ as, f a = pure a) : Noted.each f as = pure as := by
  induction as with
  | nil => rfl
  | cons a as ih =>
    obtain ⟨first, rest⟩ := List.forall_mem_cons.1 h
    rw [Noted.each, first, ih rest]
    rfl

namespace Chain

theorem normalize_request_uint (v : Json) : request.normalize .uint v = pure v.integerToHex :=
  normalize_eq_runAll request nofun

theorem normalize_result_uint (v : Json) : result.normalize .uint v = pure v.hexToInteger :=
  normalize_eq_runAll result nofun

/-- A value rests under the chain for results unless it has text in the place of a quantity. -/
theorem normalize_result_of_rests {kind : Kind} {v : Json}
    (h : kind.innermost = .uint → ¬ v.HasString) : result.normalize kind v = pure v := by
  induction kind generalizing v with
  | array element ih =>
    by_cases list : ∃ items, v = .arr items
    · obtain ⟨items, rfl⟩ := list
      have rests : ∀ item ∈ items, result.normalize element item = pure item := by
        intro item place
        exact ih fun quantity inside => h quantity (.item place inside)
      rw [normalize_array_arr, Noted.each_of_pure rests, map_pure]
    · exact normalize_array_of_not_arr result_subset_builtin element fun items h => list ⟨items, h⟩
  | uint => rw [normalize_result_uint, Json.hexToInteger_of_no_string (h rfl)]
  | _ => exact normalize_eq_runAll result nofun

/-- After the chain for arguments, the chain for results gives what it gives without it. -/
theorem normalize_result_request {kind : Kind} (quantity : kind.innermost = .uint) (v : Json) :
    result.normalize kind (request.normalize kind v).value = result.normalize kind v := by
  induction kind generalizing v with
  | array element ih =>
    by_cases list : ∃ items, v = .arr items
    · obtain ⟨items, rfl⟩ := list
      exact normalize_array_after (ih quantity) items
    · have single : ∀ items, v ≠ .arr items := fun items h => list ⟨items, h⟩
      rw [normalize_array_of_not_arr request_subset_builtin element single, Noted.value_pure]
  | uint =>
    rw [normalize_request_uint, Noted.value_pure, normalize_result_uint, normalize_result_uint,
      Json.hexToInteger_integerToHex]
  | _ => cases quantity

end Chain

/-! ## Records -/

namespace Formatting

/-- What has become of the fields of a record that went out and came back. -/
structure BothWays (kinds : Record Kind) (r back : Record Json) : Prop where
  keys : Record.keys back = Record.keys r
  undeclared : ∀ field, Record.get? kinds field = none →
    Record.get? back field = Record.get? r field
  /-- A field of quantities that holds no text, and so every one that holds numbers, is restored. -/
  restored : ∀ field kind v, Record.get? kinds field = some kind → kind.innermost = .uint →
    Record.get? r field = some v → ¬ v.HasString → Record.get? back field = some v
  quantity : ∀ field kind, Record.get? kinds field = some kind → kind.innermost = .uint →
    Record.get? back field =
      (Record.get? r field).map fun v => (Chain.result.normalize kind v).value
  other : ∀ field kind, Record.get? kinds field = some kind → kind.innermost ≠ .uint →
    Record.get? back field =
      (Record.get? r field).map fun v => (Chain.request.normalize kind v).value

/-- Every declared field is restored, if it is one of quantities and holds no text, or else as it
went out. -/
structure AsSent (kinds : Record Kind) (r back : Record Json) : Prop where
  undeclared : ∀ field, Record.get? kinds field = none →
    Record.get? back field = Record.get? r field
  restored : ∀ field kind v, Record.get? kinds field = some kind → kind.innermost = .uint →
    Record.get? r field = some v → ¬ v.HasString → Record.get? back field = some v
  other : ∀ field kind v, Record.get? kinds field = some kind → Record.get? r field = some v →
    (kind.innermost = .uint → v.HasString) →
      Record.get? back field = some (Chain.request.normalize kind v).value

/-- Fields that followed the chain for arguments and then the one for results. -/
theorem bothWays_of_followed {kinds : Record Kind} {r sent back : Record Json}
    (out : FieldsFollowed .request kinds r sent) (home : FieldsFollowed .result kinds sent back) :
    BothWays kinds r back := by
  have twice : ∀ field kind, Record.get? kinds field = some kind →
      Record.get? back field = (Record.get? r field).map fun v =>
        (Chain.result.normalize kind (Chain.request.normalize kind v).value).value := by
    intro field kind declared
    rw [home.covered field kind declared, out.covered field kind declared, Option.map_map]
    rfl
  have quantity : ∀ field kind, Record.get? kinds field = some kind → kind.innermost = .uint →
      Record.get? back field =
        (Record.get? r field).map fun v => (Chain.result.normalize kind v).value := by
    intro field kind declared uint
    rw [twice field kind declared]
    simp only [Chain.normalize_result_request uint]
  refine ⟨home.keys.trans out.keys, ?_, ?_, quantity, ?_⟩
  · intro field undeclared
    rw [home.uncovered field undeclared, out.uncovered field undeclared]
  · intro field kind v declared uint held plain
    rw [quantity field kind declared uint, held, Option.map_some,
      Chain.normalize_result_of_rests fun _ => plain, Noted.value_pure]
  · intro field kind declared other
    rw [twice field kind declared]
    simp only [Chain.normalize_result_of_rests fun uint => absurd uint other, Noted.value_pure]

/-- A record goes out by the schema of its method and comes back by the same one. -/
theorem exists_bothWays {catalog : Catalog} {method : String} {kinds : Record Kind}
    (found : catalog.lookup method = some (.keyed kinds)) (distinct : (Record.keys kinds).Nodup)
    (r : Record Json) (rest : List Json) :
    ∃ sent back,
      ((ofCatalog catalog .request).formatRequest method (.obj r :: rest)).value =
        .obj sent :: rest ∧
      ((ofResults catalog .result).formatResult method (.obj sent)).value = .obj back ∧
      FieldsFollowed .request kinds r sent ∧ BothWays kinds r back := by
  have out := Formatter.fieldsFollowed_applyFields .request distinct r
  have home := Formatter.fieldsFollowed_applyFields .result distinct
    (Formatter.applyFields (Formatter.ofFieldKinds .request kinds) r).value
  refine ⟨_, _, ?_, ?_, out, bothWays_of_followed out home⟩
  · rw [formatRequest_ofCatalog, found]
    simp only [Formatter.apply_ofSchema_keyed, Noted.value_map, asParams]
  · rw [formatResult_ofResults, found]
    rfl

/-- The chain for results undoes on quantities what the chain for arguments does, at any depth of
arrays, and leaves values of other kinds as they went out. A record that goes out by a schema and
comes back by it has its fields accordingly. -/
theorem result_inverts_request :
    (∀ (kind : Kind) (v : Json), kind.innermost = .uint →
      (Chain.result.normalize kind (Chain.request.normalize kind v).value).value =
          (Chain.result.normalize kind v).value ∧
        (¬ v.HasString → (Chain.result.normalize kind v).value = v)) ∧
    (∀ (kind : Kind) (v : Json), kind.innermost ≠ .uint →
      (Chain.result.normalize kind (Chain.request.normalize kind v).value).value =
        (Chain.request.normalize kind v).value) ∧
    ∀ (catalog : Catalog) (method : String) (kinds : Record Kind),
      catalog.lookup method = some (.keyed kinds) → (Record.keys kinds).Nodup →
      ∀ (r : Record Json) (rest : List Json), ∃ sent back,
        ((ofCatalog catalog .request).formatRequest method (.obj r :: rest)).value =
          .obj sent :: rest ∧
        ((ofResults catalog .result).formatResult method (.obj sent)).value = .obj back ∧
        FieldsFollowed .request kinds r sent ∧ BothWays kinds r back := by
  refine ⟨?_, ?_, ?_⟩
  · intro kind v quantity
    refine ⟨by rw [Chain.normalize_result_request quantity], ?_⟩
    intro plain
    rw [Chain.normalize_result_of_rests fun _ => plain, Noted.value_pure]
  · intro kind v other
    rw [Chain.normalize_result_of_rests fun quantity => absurd quantity other, Noted.value_pure]
  · intro catalog method kinds found distinct r rest
    exact exists_bothWays found distinct r rest

/-- Numbers come back, those that are no quantities among them, and bytes stay as they went out. -/
theorem result_inverts_request_lists :
    let kinds : Record Kind := [("data", .bytes), ("table", .array (.array .uint))]
    let catalog : Catalog := .ofList [("store", .keyed kinds)]
    let table : Json := .arr [.arr [.ofNat 10, .ofInt (-1)], .ofNat 3]
    let r : Record Json := [("data", .str "ff"), ("note", .str "ff"), ("table", table)]
    catalog.lookup "store" = some (.keyed kinds) ∧ (Record.keys kinds).Nodup ∧
      ¬ table.HasString ∧
      (Chain.request.normalize (.array (.array .uint)) table).value =
        .arr [.arr [.str "0xa", .ofInt (-1)], .ofNat 3] ∧
      ∃ sent back,
        ((ofCatalog catalog .request).formatRequest "store" [.obj r]).value = [.obj sent] ∧
        ((ofResults catalog .result).formatResult "store" (.obj sent)).value = .obj back ∧
        BothWays kinds r back ∧ Record.get? back "table" = some table := by
  intro kinds catalog table r
  obtain ⟨-, -, records⟩ := result_inverts_request
  have found : catalog.lookup "store" = some (.keyed kinds) := by decide +kernel
  have distinct : (Record.keys kinds).Nodup := by decide
  have plain : ¬ table.HasString := by simp [table, Json.ofNat, Json.ofInt]
  obtain ⟨sent, back, out, home, -, both⟩ := records catalog "store" kinds found distinct r []
  refine ⟨found, distinct, plain, by decide +kernel, sent, back, out, home, both, ?_⟩
  exact both.restored "table" (.array (.array .uint)) table rfl rfl rfl plain

/-- Gas that is hexadecimal text goes out as it is and comes back as an integer. -/
theorem not_asSent_hex_gas :
    let kinds : Record Kind := [("gas", .uint)]
    let catalog : Catalog := .ofList [("m", .keyed kinds)]
    let r : Record Json := [("gas", .str "0x5208")]
    catalog.lookup "m" = some (.keyed kinds) ∧
      ((ofCatalog catalog .request).formatRequest "m" [.obj r]).value = [.obj r] ∧
      ((ofResults catalog .result).formatResult "m" (.obj r)).value =
        .obj [("gas", .ofNat 21000)] ∧
      ¬ AsSent kinds r [("gas", .ofNat 21000)] := by
  intro kinds catalog r
  refine ⟨by decide +kernel, by decide +kernel, by decide +kernel, ?_⟩
  intro asSent
  have gas := asSent.other "gas" .uint (.str "0x5208") rfl rfl fun _ => .str
  have same : (Chain.request.normalize .uint (.str "0x5208")).value = .str "0x5208" := rfl
  rw [same] at gas
  cases gas

end Formatting

end EthGateway
