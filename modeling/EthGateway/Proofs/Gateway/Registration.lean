import EthGateway.Proofs.Pipeline.Run
import EthGateway.Proofs.Record.Lookup
import EthGateway.Proofs.Steps
import EthGateway.Server.Dispatch

/-
# EthGateway.Proofs.Gateway.Registration -- every name is registered once

Names are registered one after the other, and this succeeds exactly if none of them is there before
its turn (`registerAll_eq_ok_iff`). A server registers the known names without repetitions, and then
the methods of its catalog that are not among them. A catalog lists a method once, so no name is
there before its turn whatever the catalog holds (`ofCatalog_eq`): a server is always built, and
the only reason that keeps it from starting is that it cannot listen (`run_launch`).
-/

namespace EthGateway.Server

namespace Registry

/-! ## One name after the other -/

/-- A name is registered unless it is there already. -/
theorem register_eq_ok_iff {r s : Registry} {name : String} :
    r.register name = .ok s ↔ name ∉ r.names ∧ s = ⟨r.names ++ [name]⟩ := by
  unfold register
  split
  · next there => exact iff_of_false nofun fun ⟨new, _⟩ => new there
  · next new =>
    constructor
    · rintro ⟨⟩
      exact ⟨new, rfl⟩
    · rintro ⟨-, rfl⟩
      rfl

/-- Names are registered exactly if they are new and none of them is listed twice, and they come
behind those that are there. -/
theorem registerAll_eq_ok_iff {r s : Registry} {names : List String} :
    r.registerAll names = .ok s ↔
      names.Nodup ∧ (∀ name ∈ names, name ∉ r.names) ∧ s = ⟨r.names ++ names⟩ := by
  unfold registerAll
  induction names generalizing r with
  | nil =>
    rw [List.append_nil]
    constructor
    · rintro ⟨⟩
      exact ⟨.nil, nofun, rfl⟩
    · rintro ⟨-, -, rfl⟩
      rfl
  | cons name names ih =>
    rw [List.foldlM_cons, bind_eq_ok_iff, List.nodup_cons, List.forall_mem_cons]
    constructor
    · rintro ⟨t, first, rest⟩
      obtain ⟨new, rfl⟩ := register_eq_ok_iff.1 first
      obtain ⟨distinct, others, rfl⟩ := ih.1 rest
      refine ⟨⟨?_, distinct⟩, ⟨new, ?_⟩, ?_⟩
      · -- The name is there by the time the others are registered.
        intro again
        exact others name again (List.mem_append_right _ List.mem_cons_self)
      · intro other listed there
        exact others other listed (List.mem_append_left _ there)
      · rw [List.append_assoc, List.singleton_append]
    · rintro ⟨⟨unlisted, distinct⟩, ⟨new, others⟩, rfl⟩
      refine ⟨_, register_eq_ok_iff.2 ⟨new, rfl⟩, ih.2 ⟨distinct, ?_, ?_⟩⟩
      · intro other listed there
        rcases List.mem_append.1 there with there | there
        · exact others other listed there
        · exact unlisted (List.mem_singleton.1 there ▸ listed)
      · rw [List.append_assoc, List.singleton_append]

/-- Distinct names are registered in any two parts, one after the other. -/
theorem registerAll_registerAll {first second : List String} (distinct : (first ++ second).Nodup) :
    (empty.registerAll first >>= fun r => r.registerAll second) = .ok ⟨first ++ second⟩ := by
  obtain ⟨firstDistinct, secondDistinct, apart⟩ := List.nodup_append.1 distinct
  have registered : empty.registerAll first = .ok ⟨first⟩ :=
    registerAll_eq_ok_iff.2 ⟨firstDistinct, fun _ _ => List.not_mem_nil, rfl⟩
  refine bind_eq_ok_iff.2 ⟨⟨first⟩, registered, registerAll_eq_ok_iff.2 ⟨secondDistinct, ?_, rfl⟩⟩
  intro name later there
  exact apart name there name later rfl

/-! ## The names of a server -/

theorem nodup_eraseDups : ∀ names : List String, names.eraseDups.Nodup
  | [] => List.nodup_nil
  | name :: names => by
    rw [List.eraseDups_cons, List.nodup_cons]
    refine ⟨?_, nodup_eraseDups _⟩
    rw [List.mem_eraseDups]
    simp
termination_by names => names.length
decreasing_by exact Nat.lt_succ_of_le (List.length_filter_le _ _)

variable (catalog : Catalog)

theorem nodup_extraNames : (extraNames catalog).Nodup :=
  (Record.nodup_keys_of_ordered catalog.ordered).filter _

theorem mem_extraNames_iff {name : String} :
    name ∈ extraNames catalog ↔ (∃ schema, catalog.lookup name = some schema) ∧
      name ∉ knownNames := by
  unfold extraNames Catalog.methods Catalog.lookup
  rw [List.mem_filter, decide_eq_true_iff, ← Option.isSome_iff_exists, ← Record.contains,
    Record.contains_eq_true_iff]

/-- Schemas under the name of a known method or under a deprecated name add nothing. -/
example :
    let schema := ParamSchema.ofNames [some "uint"]
    extraNames (.ofList [("eth_call", schema), ("addPeer", schema), ("", schema)]) = [""] := by
  decide +kernel

theorem nodup_names : (knownNames.eraseDups ++ extraNames catalog).Nodup := by
  refine List.nodup_append.2 ⟨nodup_eraseDups _, nodup_extraNames catalog, ?_⟩
  rintro name known other extra rfl
  exact ((mem_extraNames_iff catalog).1 extra).2 (List.mem_eraseDups.1 known)

/-- No name is there before its turn. -/
theorem ofCatalog_eq :
    ofCatalog catalog = .ok ⟨knownNames.eraseDups ++ extraNames catalog⟩ :=
  registerAll_registerAll (nodup_names catalog)

theorem mem_names_iff {name : String} :
    name ∈ knownNames.eraseDups ++ extraNames catalog ↔
      name ∈ knownNames ∨ ∃ schema, catalog.lookup name = some schema := by
  rw [List.mem_append, List.mem_eraseDups, mem_extraNames_iff]
  by_cases known : name ∈ knownNames
  · simp [known]
  · simp [known]

end Registry

/-! ## Servers are built -/

section Build

variable (config : Config) (catalog : Catalog)

theorem build_eq :
    build config catalog =
      .ok ⟨⟨Registry.knownNames.eraseDups ++ Registry.extraNames catalog⟩,
        pipeline config catalog⟩ := by
  unfold build
  rw [Registry.ofCatalog_eq]
  rfl

/-- Whatever a catalog holds, a server is built. It offers the known methods, the deprecated names
and the methods of the catalog, each of them once. -/
theorem build_registers_union :
    ∃ s, build config catalog = .ok s ∧ s.registry.names.Nodup ∧
      ∀ name, name ∈ s.registry.names ↔
        name ∈ Methods.all ∨ (∃ a ∈ Alias.standard, a.name = name) ∨
          ∃ schema, catalog.lookup name = some schema := by
  refine ⟨_, build_eq config catalog, Registry.nodup_names catalog, ?_⟩
  intro name
  rw [Registry.mem_names_iff, Registry.knownNames, List.mem_append, List.mem_map, or_assoc]

/-- A server starts if it can listen, whether the backend is reached or not. -/
theorem run_launch (canListen : Bool) (backend : Backend) (earlier : List Call) :
    ((launch config catalog canListen).run backend earlier).result =
      if canListen then
        .ok ⟨⟨Registry.knownNames.eraseDups ++ Registry.extraNames catalog⟩,
          pipeline config catalog⟩
      else .error .cannotListen := by
  unfold launch
  rw [Exchange.run_bind, build_eq]
  cases canListen <;> rfl

end Build

end EthGateway.Server
