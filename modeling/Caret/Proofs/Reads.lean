/-
  What an evaluation reads, and that nothing else counts.

  Groups stop early and a mismatch stops everything, so which properties are looked up depends on
  the values that are found on the way.  The account of the reads says it all the same:

  1. **Dependence** — a second record that agrees with the first one on what the first evaluation
     read, an absent property counting as `null`, leads to the same outcome, result and reads
     (`outcome_eq_of_agree`).  Nothing is said of properties that the first evaluation left alone:
     a group that is decided by a child is decided by it in both evaluations.

  2. **Order** — the reads are some of the properties of the leaves, from left to right, and of a
     well-formed tree at least one.

  3. **Mismatches** — a mismatch is about the property that was read last, and names the kind of
     the value that is there.

  Every proof over trees is a pair, one half for a condition and one for the children of a group.
-/
import Caret.Condition.Evaluation

namespace Caret

/-- Two records hold the same values under the given names; an absent property counts as `null`. -/
def Lookup.AgreeOn (look look' : Lookup) (names : List String) : Prop :=
  ∀ p ∈ names, (look' p).getD .null = (look p).getD .null

namespace Test

/-- A test that ends in a mismatch has found a value, and reports its kind. -/
theorem found_of_check_eq_error {test : Test} {property : String} {found : Option Value}
    {e : TypeMismatch} (h : test.check property (found.getD .null) = .error e) :
    e.property = property ∧ found.map Value.kind = some e.found := by
  cases found with
  | none => cases test <;> cases h
  | some v =>
    cases test with
    | equality op comparand => cases h
    | presence op => cases h
    | order op threshold =>
      rw [check] at h
      split at h
      · cases h
      · split at h
        · cases h
        · cases h
          exact ⟨rfl, rfl⟩
    | text op pattern =>
      cases v with
      | bool b =>
        cases h
        exact ⟨rfl, rfl⟩
      | _ => cases h

end Test

namespace Condition

variable {look look' : Lookup}

/-! ## Dependence -/

mutual

/-- **Evaluation depends only on what it reads.** -/
theorem outcome_eq_of_agree : ∀ c : Condition, look.AgreeOn look' (c.reads look) →
    c.outcome look' = c.outcome look
  | leaf property test, h => by
    have hvalue : (look' property).getD .null = (look property).getD .null :=
      h property (List.mem_singleton_self property)
    rw [outcome, outcome, hvalue]
  | group op cs, h => outcomeOfAll_eq_of_agree op.decisive cs h
  | negation c, h => by
    have hchild : c.outcome look' = c.outcome look := outcome_eq_of_agree c h
    rw [outcome, outcome, hchild]

theorem outcomeOfAll_eq_of_agree (decisive : Bool) : ∀ cs : List Condition,
    look.AgreeOn look' (outcomeOfAll look decisive cs).reads →
    outcomeOfAll look' decisive cs = outcomeOfAll look decisive cs
  | [], _ => rfl
  | c :: cs, h => by
    by_cases hpasses : c.evaluate look = .ok (!decisive)
    · rw [outcomeOfAll_cons_of_passes hpasses] at h ⊢
      obtain ⟨hc, hcs⟩ := List.forall_mem_append.1 h
      have hfirst : c.outcome look' = c.outcome look := outcome_eq_of_agree c hc
      -- the first child passes on the other record too, so both evaluations go on
      have hpasses' : c.evaluate look' = .ok (!decisive) := by
        rw [evaluate, hfirst]
        exact hpasses
      rw [outcomeOfAll_cons_of_passes hpasses', outcomeOfAll_eq_of_agree decisive cs hcs, reads,
        reads, hfirst]
    · rw [outcomeOfAll_cons_of_stops hpasses] at h ⊢
      have hfirst : c.outcome look' = c.outcome look := outcome_eq_of_agree c h
      have hpasses' : c.evaluate look' ≠ .ok (!decisive) := by
        rw [evaluate, hfirst]
        exact hpasses
      rw [outcomeOfAll_cons_of_stops hpasses', hfirst]

end

/-! ## Order -/

/-- The properties of the leaves, from left to right. -/
def properties (c : Condition) : List String := c.nodes.filterMap property?

/-- The properties of the leaves of several conditions. -/
def propertiesOfAll (cs : List Condition) : List String := (nodesOfAll cs).filterMap property?

theorem propertiesOfAll_cons (c : Condition) (cs : List Condition) :
    propertiesOfAll (c :: cs) = c.properties ++ propertiesOfAll cs := by
  rw [propertiesOfAll, nodesOfAll, List.filterMap_append]
  rfl

mutual

/-- **What is read are properties of leaves, in their order.** -/
theorem reads_sublist_properties (look : Lookup) :
    ∀ c : Condition, (c.reads look).Sublist c.properties
  | leaf property _ => List.Sublist.refl [property]
  | group op cs => reads_outcomeOfAll_sublist look op.decisive cs
  | negation c => reads_sublist_properties look c

theorem reads_outcomeOfAll_sublist (look : Lookup) (decisive : Bool) : ∀ cs : List Condition,
    (outcomeOfAll look decisive cs).reads.Sublist (propertiesOfAll cs)
  | [] => List.Sublist.refl []
  | c :: cs => by
    have hc := reads_sublist_properties look c
    rw [propertiesOfAll_cons]
    by_cases hpasses : c.evaluate look = .ok (!decisive)
    · rw [outcomeOfAll_cons_of_passes hpasses]
      exact hc.append (reads_outcomeOfAll_sublist look decisive cs)
    · rw [outcomeOfAll_cons_of_stops hpasses]
      exact hc.trans (List.sublist_append_left c.properties (propertiesOfAll cs))

end

/-- The first child is always evaluated. -/
theorem reads_prefix_reads_group (look : Lookup) (op : Connective) (c : Condition)
    (cs : List Condition) : c.reads look <+: (group op (c :: cs)).reads look := by
  show c.reads look <+: (outcomeOfAll look op.decisive (c :: cs)).reads
  by_cases hpasses : c.evaluate look = .ok (!op.decisive)
  · rw [outcomeOfAll_cons_of_passes hpasses]
    exact List.prefix_append _ _
  · rw [outcomeOfAll_cons_of_stops hpasses]
    exact List.prefix_refl _

/-- A well-formed tree reads something, since none of its groups is empty. -/
theorem reads_ne_nil (look : Lookup) : ∀ {c : Condition}, c.WellFormed → c.reads look ≠ []
  | leaf property test, _ => List.cons_ne_nil property []
  | group op [], h => absurd rfl h.1
  | group op (c :: cs), h => by
    intro hnil
    have hstarts := reads_prefix_reads_group look op c cs
    rw [hnil] at hstarts
    exact reads_ne_nil look h.2.1 (List.prefix_nil.1 hstarts)
  | negation c, h => reads_ne_nil (c := c) look h

/-! ## Mismatches -/

mutual

/-- **A mismatch is about the last read.** -/
theorem last_read_of_error (look : Lookup) : ∀ (c : Condition) {e : TypeMismatch},
    c.evaluate look = .error e →
    (c.reads look).getLast? = some e.property ∧ (look e.property).map Value.kind = some e.found
  | leaf property test, e, h => by
    obtain ⟨rfl, hfound⟩ := Test.found_of_check_eq_error h
    exact ⟨rfl, hfound⟩
  | group op cs, e, h => last_read_of_result look op.decisive cs h
  | negation c, e, h => last_read_of_error look c (evaluate_negation_eq_error_iff.1 h)

theorem last_read_of_result (look : Lookup) (decisive : Bool) : ∀ (cs : List Condition)
    {e : TypeMismatch}, (outcomeOfAll look decisive cs).result = .error e →
    (outcomeOfAll look decisive cs).reads.getLast? = some e.property ∧
      (look e.property).map Value.kind = some e.found
  | [], e, h => nomatch h
  | c :: cs, e, h => by
    by_cases hpasses : c.evaluate look = .ok (!decisive)
    · rw [outcomeOfAll_cons_of_passes hpasses] at h ⊢
      obtain ⟨hlast, hfound⟩ := last_read_of_result look decisive cs h
      refine ⟨?_, hfound⟩
      show (c.reads look ++ (outcomeOfAll look decisive cs).reads).getLast? = some e.property
      rw [List.getLast?_append, hlast, Option.some_or]
    · rw [outcomeOfAll_cons_of_stops hpasses] at h ⊢
      exact last_read_of_error look c h

end

/-- **Evaluation and its reads.**  Any record that agrees with the first one on what was read, an
    absent property counting as `null`, gives the same result after the same reads.  The reads are
    properties of leaves from left to right, and of a tree that can be built at least one.  A
    mismatch is about the last of them, and tells the kind of the value that the record holds
    there. -/
theorem evaluate_reads (c : Condition) (look : Lookup) :
    (∀ look', look.AgreeOn look' (c.reads look) →
        c.evaluate look' = c.evaluate look ∧ c.reads look' = c.reads look) ∧
      (c.WellFormed → c.reads look ≠ []) ∧
      (c.reads look).Sublist c.properties ∧
      ∀ e, c.evaluate look = .error e →
        (c.reads look).getLast? = some e.property ∧
          (look e.property).map Value.kind = some e.found := by
  refine ⟨fun look' hagree => ?_, reads_ne_nil look, reads_sublist_properties look c,
    fun e h => last_read_of_error look c h⟩
  have houtcome := outcome_eq_of_agree c hagree
  exact ⟨congrArg Outcome.result houtcome, congrArg Outcome.reads houtcome⟩

/-- The nickname may be absent or `null`, and `open` is never looked at: the mismatch at `name`
    comes first. -/
theorem evaluate_reads_nickname :
    let c := group .or [leaf "nickname" (.text .startsWith "A"),
      negation (leaf "name" (.order .gt .one)), leaf "open" (.equality .eq (.bool true))]
    let record := Record.ofList [("name", .string "Ann"), ("open", .bool true)]
    let other := Record.ofList [("name", .string "Ann"), ("nickname", .null)]
    Lookup.AgreeOn record.get? other.get? (c.reads record.get?) ∧ c.WellFormed ∧
      c.evaluate record.get? = .error ⟨"name", .number, .string⟩ ∧
      c.evaluate other.get? = .error ⟨"name", .number, .string⟩ ∧
      c.reads other.get? = ["nickname", "name"] ∧
      (c.reads record.get?).getLast? = some "name" ∧ c.reads record.get? ≠ [] := by
  intro c record other
  have hreads : c.reads record.get? = ["nickname", "name"] := rfl
  have hresult : c.evaluate record.get? = .error ⟨"name", .number, .string⟩ := rfl
  have hagree : Lookup.AgreeOn record.get? other.get? (c.reads record.get?) := by
    rw [hreads]
    exact List.forall_mem_cons.2 ⟨rfl, List.forall_mem_singleton.2 rfl⟩
  have hone : Number.one.isFinite = true := by decide
  have hwf : c.WellFormed := ⟨List.cons_ne_nil _ _, trivial, hone, trivial, trivial⟩
  obtain ⟨hdepends, hsome, -, hlast⟩ := evaluate_reads c record.get?
  obtain ⟨hresult', hreads'⟩ := hdepends other.get? hagree
  exact ⟨hagree, hwf, hresult, hresult'.trans hresult, hreads'.trans hreads,
    (hlast _ hresult).1, hsome hwf⟩

end Condition

end Caret
