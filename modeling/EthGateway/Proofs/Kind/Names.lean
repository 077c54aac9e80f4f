import EthGateway.Kind
import Mathlib.Data.List.Basic
import Mathlib.Tactic.SplitIfs

/-
# EthGateway.Proofs.Kind.Names -- kinds and the texts that name them

Every text names a kind, and many texts name the same one: blank characters around a name do not
count, at any level of an array, and sizes may have a plus sign and zeros in front. The kinds that
are named are the `Regular` ones (`regular_iff`): their sizes are those that there are, and what is
unknown could not be read in another way. A regular kind is read back from its own name
(`ofChars_chars`), so on the kinds that are named, names and kinds determine each other
(`parse_text_parse`).
-/

namespace EthGateway

namespace Text

/-! ## Trimming -/

/-- Neither the first nor the last character is blank. -/
structure Trimmed (cs : List Char) : Prop where
  first : ∀ c, cs.head? = some c → isBlank c = false
  last : ∀ c, cs.getLast? = some c → isBlank c = false

theorem trimStart_of_first {cs : List Char}
    (first : ∀ c, cs.head? = some c → isBlank c = false) : trimStart cs = cs := by
  cases cs with
  | nil => rfl
  | cons c cs => rw [trimStart, List.dropWhile_cons_of_neg (by simp [first c rfl])]

theorem first_trimStart {cs : List Char} {c : Char} (h : (trimStart cs).head? = some c) :
    isBlank c = false := by
  have kept := List.head?_dropWhile_not isBlank cs
  rw [trimStart] at h
  rwa [h] at kept

/-- Of what is left at the end, the front is as it was. -/
theorem trimEnd_prefix (cs : List Char) : trimEnd cs <+: cs := by
  rw [trimEnd, ← List.reverse_suffix, List.reverse_reverse]
  exact List.dropWhile_suffix isBlank

theorem trimmed_trim (cs : List Char) : Trimmed (trim cs) := by
  refine ⟨?_, ?_⟩
  · intro c h
    obtain ⟨rest, whole⟩ := trimEnd_prefix (trimStart cs)
    have kept : (trimStart cs).head? = some c := by
      rw [← whole, List.head?_append, ← trim, h]
      rfl
    exact first_trimStart kept
  · intro c h
    rw [trim, trimEnd, List.getLast?_reverse] at h
    exact first_trimStart h

/-- Trimming is for the texts that are not trimmed yet. -/
theorem trimmed_iff {cs : List Char} : Trimmed cs ↔ trim cs = cs := by
  constructor
  · rintro ⟨first, last⟩
    have front : trimStart cs = cs := trimStart_of_first first
    have back : trimStart cs.reverse = cs.reverse :=
      trimStart_of_first fun c h => last c (by rwa [List.head?_reverse] at h)
    rw [trim, front, trimEnd, back, List.reverse_reverse]
  · intro same
    rw [← same]
    exact trimmed_trim cs

theorem Trimmed.append {cs ds : List Char} (front : Trimmed cs) (back : Trimmed ds)
    (nonempty : ds ≠ []) : Trimmed (cs ++ ds) := by
  refine ⟨?_, ?_⟩
  · intro c h
    cases cs with
    | nil => exact back.first c h
    | cons d cs => exact front.first c h
  · intro c h
    rw [List.getLast?_append_of_ne_nil _ nonempty] at h
    exact back.last c h

end Text

namespace Kind

open Text

/-! ## Names of arrays -/

theorem element?_append (e : List Char) : element? (e ++ ['[', ']']) = some e := by
  simp [element?]

theorem element?_eq_none_iff {name : List Char} :
    element? name = none ↔ ¬ ['[', ']'] <:+ name := by
  constructor
  · rintro none ⟨e, rfl⟩
    rw [element?_append] at none
    cases none
  · intro other
    cases read : element? name with
    | none => rfl
    | some e => exact absurd ⟨e, (eq_append_of_element? read).symm⟩ other

theorem ofChars_of_element? {cs e : List Char} (h : element? (trim cs) = some e) :
    ofChars cs = .array (ofChars e) := by
  rw [ofChars]
  split
  · next e' h' =>
    rw [h] at h'
    cases h'
    rfl
  · next h' =>
    rw [h] at h'
    cases h'

theorem ofChars_of_no_element {cs : List Char} (h : element? (trim cs) = none) :
    ofChars cs = ofName (trim cs) := by
  rw [ofChars]
  split
  · next e h' =>
    rw [h] at h'
    cases h'
  · rfl

/-! ## The kinds that are named -/

/-- The size of fixed bytes is one that there is, and what is unknown is a trimmed name of no
array that is read as it is. -/
def Regular : Kind → Prop
  | .fixedBytes n => 1 ≤ n ∧ n ≤ 31
  | .array e => e.Regular
  | .unknown name =>
    Trimmed name.toList ∧ ¬ ['[', ']'] <:+ name.toList ∧ ofName name.toList = .unknown name
  | _ => True

/-- The ways in which a name that is no array's may be read. -/
theorem ofName_cases (name : List Char) :
    ofName name ∈ [address, bool, string, bytes, hash, uint] ∨
      (∃ n, (1 ≤ n ∧ n ≤ 31) ∧ ofName name = .fixedBytes n) ∨
        ofName name = .unknown (String.ofList name) := by
  unfold ofName
  split_ifs
  iterate 6 exact .inl (by simp)
  cases size : byteSize? name with
  | some n =>
    obtain ⟨-, bounds⟩ := Option.filter_eq_some_iff.1 size
    have range : 1 ≤ n ∧ n < 32 := by simpa using bounds
    exact .inr (.inl ⟨n, ⟨range.1, by omega⟩, rfl⟩)
  | none =>
    cases bitSize? name with
    | some n => exact .inl (by simp)
    | none => exact .inr (.inr rfl)

theorem regular_ofName {name : List Char} (trimmed : Trimmed name)
    (noArray : element? name = none) : (ofName name).Regular := by
  have plain : ∀ k ∈ [address, bool, string, bytes, hash, uint], k.Regular := by simp [Regular]
  rcases ofName_cases name with known | ⟨n, size, fixed⟩ | other
  · exact plain _ known
  · rw [fixed]
    exact size
  · rw [other, Regular, String.toList_ofList]
    exact ⟨trimmed, element?_eq_none_iff.1 noArray, other⟩

theorem regular_ofChars (cs : List Char) : (ofChars cs).Regular := by
  induction cs using ofChars.induct with
  | case1 cs e array _ ih =>
    rw [ofChars_of_element? array]
    exact ih
  | case2 cs single =>
    rw [ofChars_of_no_element single]
    exact regular_ofName (trimmed_trim cs) single

theorem regular_innermost {k : Kind} (h : k.Regular) : k.innermost.Regular := by
  induction k with
  | array e ih => exact ih h
  | _ => exact h

/-! ## Reading a name back -/

/-- The names of the sizes are trimmed, are no arrays' and are read. -/
theorem fixedBytes_chars {n : Nat} (size : 1 ≤ n ∧ n ≤ 31) :
    trim (chars (.fixedBytes n)) = chars (.fixedBytes n) ∧
      element? (chars (.fixedBytes n)) = none ∧
        ofName (chars (.fixedBytes n)) = .fixedBytes n := by
  have all : ∀ n < 32, 1 ≤ n →
      trim (chars (.fixedBytes n)) = chars (.fixedBytes n) ∧
        element? (chars (.fixedBytes n)) = none ∧
          ofName (chars (.fixedBytes n)) = .fixedBytes n := by decide +kernel
  exact all n (by omega) size.1

theorem trimmed_chars {k : Kind} (h : k.Regular) : Trimmed k.chars := by
  induction k with
  | array e ih => exact (ih h).append (trimmed_iff.2 (by decide)) (by decide)
  | unknown name => exact h.1
  | fixedBytes n => exact trimmed_iff.2 (fixedBytes_chars h).1
  | _ => exact trimmed_iff.2 (by decide)

theorem ofChars_of_trimmed {cs : List Char} (trimmed : Trimmed cs) (noArray : element? cs = none) :
    ofChars cs = ofName cs := by
  have same := trimmed_iff.1 trimmed
  rw [ofChars_of_no_element (by rwa [same]), same]

/-- A regular kind is read back from its name. -/
theorem ofChars_chars {k : Kind} (h : k.Regular) : ofChars k.chars = k := by
  have trimmed := trimmed_chars h
  induction k with
  | array e ih =>
    have array : element? (trim (chars (.array e))) = some e.chars := by
      rw [trimmed_iff.1 trimmed]
      exact element?_append e.chars
    rw [ofChars_of_element? array, ih h (trimmed_chars h)]
  | unknown name =>
    obtain ⟨-, noArray, unread⟩ := h
    exact (ofChars_of_trimmed trimmed (element?_eq_none_iff.2 noArray)).trans unread
  | fixedBytes n =>
    obtain ⟨-, noArray, size⟩ := fixedBytes_chars h
    exact (ofChars_of_trimmed trimmed noArray).trans size
  | _ => exact (ofChars_of_trimmed trimmed (by decide)).trans (by decide)

theorem parse_text {k : Kind} (h : k.Regular) : parse k.text = k := by
  rw [parse, text, String.toList_ofList, ofChars_chars h]

/-- The regular kinds are those that some text names. -/
theorem regular_iff {k : Kind} : k.Regular ↔ ∃ s, parse s = k := by
  constructor
  · intro h
    exact ⟨k.text, parse_text h⟩
  · rintro ⟨s, rfl⟩
    exact regular_ofChars s.toList

theorem width_of_regular {k : Kind} (h : k.Regular) {width : Nat}
    (fixed : k.byteWidth? = some width) : 1 ≤ width ∧ width ≤ 31 ∨ k = .hash ∧ width = 32 := by
  cases k with
  | fixedBytes n =>
    cases fixed
    exact .inl h
  | hash =>
    cases fixed
    exact .inr ⟨rfl, rfl⟩
  | _ => cases fixed

/-- The kind that a text names is read back from its own name, so two texts name the same kind
exactly if the names of their kinds are the same. At any depth of arrays, bytes of a fixed size are
one to thirty-two, and an unknown name is trimmed, is no array's and names nothing else. -/
theorem parse_text_parse (s t : String) :
    parse (parse s).text = parse s ∧
    (parse s = parse t ↔ (parse s).text = (parse t).text) ∧
    (∀ width, (parse s).innermost.byteWidth? = some width →
      1 ≤ width ∧ width ≤ 31 ∨ (parse s).innermost = .hash ∧ width = 32) ∧
    ∀ name, (parse s).innermost = .unknown name →
      Trimmed name.toList ∧ ¬ ['[', ']'] <:+ name.toList ∧ parse name = .unknown name := by
  have regular : ∀ r, (parse r).Regular := fun r => regular_iff.2 ⟨r, rfl⟩
  have back : ∀ r, parse (parse r).text = parse r := fun r => parse_text (regular r)
  have inside : (parse s).innermost.Regular := regular_innermost (regular s)
  refine ⟨back s, ?_, fun width => width_of_regular inside, ?_⟩
  · refine ⟨congrArg text, fun same => ?_⟩
    rw [← back s, same, back t]
  · intro name unknown
    rw [unknown] at inside
    obtain ⟨trimmed, noArray, unread⟩ := inside
    refine ⟨trimmed, noArray, ?_⟩
    exact (ofChars_of_trimmed trimmed (element?_eq_none_iff.2 noArray)).trans unread

/-- A size may have a plus sign and zeros in front, but not the one of a hash. -/
theorem parse_text_parse_sizes :
    let s := " bytes+08 []"
    let t := "bytes8[]"
    let u := "bytes032\u00a0[]"
    (parse s).text = "bytes8[]" ∧ parse (parse s).text = parse s ∧
      (parse s = parse t ∧ (parse s).text = (parse t).text) ∧
      ((parse s).innermost.byteWidth? = some 8 ∧
        (1 ≤ 8 ∧ 8 ≤ 31 ∨ (parse s).innermost = .hash ∧ 8 = 32)) ∧
      (parse u).innermost = .unknown "bytes032" ∧
        Trimmed "bytes032".toList ∧ ¬ ['[', ']'] <:+ "bytes032".toList ∧
          parse "bytes032" = .unknown "bytes032" := by
  intro s t u
  have hs : parse s = .array (.fixedBytes 8) := by
    rw [parse, ofChars_of_element? (e := " bytes+08 ".toList.drop 1) (by decide),
      ofChars_of_no_element (by decide)]
    decide +kernel
  have ht : parse t = .array (.fixedBytes 8) := by
    rw [parse, ofChars_of_element? (e := "bytes8".toList) (by decide),
      ofChars_of_no_element (by decide)]
    decide +kernel
  have hu : parse u = .array (.unknown "bytes032") := by
    rw [parse, ofChars_of_element? (e := "bytes032\u00a0".toList) (by decide),
      ofChars_of_no_element (by decide)]
    decide +kernel
  obtain ⟨back, same, widths, -⟩ := parse_text_parse s t
  obtain ⟨-, -, -, unknown⟩ := parse_text_parse u t
  have eight : (parse s).innermost.byteWidth? = some 8 := by rw [hs]; rfl
  have rest : (parse u).innermost = .unknown "bytes032" := by rw [hu]; rfl
  have equal : parse s = parse t := hs.trans ht.symm
  refine ⟨?_, back, ⟨equal, same.1 equal⟩, ⟨eight, widths 8 eight⟩, rest, unknown _ rest⟩
  rw [hs]
  decide +kernel

end Kind

end EthGateway
