import DataflowPlan.Graph.Validation
import Mathlib.Data.List.Nodup
import Mathlib.Data.List.Perm.Subperm

/-! The order in which the tuple sets of a valid graph are made.
Validation counts how many tuple sets can be made, each after all its inputs. The count comes to its
end and goes below zero nowhere, and it is the length of an order to which nothing can be added. If
it reaches all tuple sets, then every edge goes up in that order.
-/

namespace DataflowPlan

/-- The reads of an atomic whose tuple sets are not made yet. -/
def Atomic.missing (a : Atomic) (made : List String) : Nat :=
  a.inputs.countP fun input => !made.contains input

/-- A newly made tuple set lowers the count by the reads of it.
Witness: induction on the inputs; one that is made already is counted on neither side.
-/
theorem Atomic.missing_snoc (a : Atomic) {made : List String} {name : String}
    (fresh : name ∉ made)
    : a.missing made = a.missing (made ++ [name]) + a.inputs.count name := by
  unfold missing
  induction a.inputs with
  | nil => rfl
  | cons input rest ih =>
      rw [List.countP_cons, List.countP_cons, List.count_cons, ih]
      by_cases same : input = name
      · subst same
        simp [fresh]
        omega
      · by_cases old : input ∈ made <;> simp [same, old]
        omega

/-- Nothing is missing once every input is made. -/
theorem Atomic.missing_eq_zero {a : Atomic} {made : List String}
    : a.missing made = 0 ↔ ∀ input ∈ a.inputs, input ∈ made := by
  simp [missing, List.countP_eq_zero]

namespace Graph

theorem Waiting.count?_set (w : Waiting) (output other : String) (count : Nat)
    : (w.set output count).count? other =
        if other = output then (w.count? other).map (fun _ => count) else w.count? other := by
  unfold Waiting.set Waiting.count?
  induction w with
  | nil => simp
  | cons entry rest ih =>
      by_cases here : entry.1 = output
      · by_cases same : other = output
        · simp [here, same]
        · have differs : ¬ output = other := fun h => same h.symm
          simpa [here, same, differs] using ih
      · by_cases found : entry.1 = other
        · have differs : ¬ other = output := fun h => here (found.trans h)
          simp [found, differs]
        · simpa [here, found] using ih

/-- At first every atomic waits for all its reads, in whatever order the counts are kept.
Witness: the entry that look-up finds is that of an atomic of the same output, of which there is
one.
-/
theorem count?_of_perm {g : Graph} (distinct : g.outputs.Nodup) {counts : Waiting}
    (perm : counts.Perm g.waiting) {a : Atomic} (member : a ∈ g.atomics)
    : counts.count? a.output = some a.inputs.length := by
  have listed : (a.output, a.inputs.length) ∈ counts :=
    perm.mem_iff.mpr (List.mem_map_of_mem member)
  cases found : counts.find? (·.1 == a.output) with
  | none => simpa using List.find?_eq_none.mp found _ listed
  | some entry =>
      obtain ⟨b, inAtomics, rfl⟩ :=
        List.mem_map.mp (perm.mem_iff.mp (List.mem_of_find?_eq_some found))
      have same : b.output = a.output := by simpa using List.find?_some found
      obtain rfl := List.inj_on_of_nodup_map distinct inAtomics member same
      simp [Waiting.count?, found]

-----------------------------------------------------------------------------------------------
-- Counting that notices when it goes wrong
-----------------------------------------------------------------------------------------------

/-- Releases a consumer that still waits for all its reads of the tuple set; none if it waits for
fewer, so that its count would go below zero.
-/
def Waiting.release? (made : String) (state : Waiting × List String) (consumer : Atomic)
    : Option (Waiting × List String) :=
  if (state.1.count? consumer.output).all (consumer.inputs.count made ≤ ·) then
    some (Waiting.release made state consumer)
  else none

/-- The count of all tuple sets that can be made; none if some are still ready when the fuel is used
up, or if a consumer is released from more reads than it waits for.
-/
def countMade? (g : Graph) : Nat → Waiting → List String → Option Nat
  | _, _, [] => some 0
  | 0, _, _ :: _ => none
  | fuel + 1, w, made :: ready => do
    let (w, ready) ← (g.consumersOf made).foldlM (Waiting.release? made) (w, ready)
    let others ← countMade? g fuel w ready
    some (others + 1)

/-- Releases that go well are those of the count. -/
theorem foldl_of_foldlM_release {name : String} {consumers : List Atomic}
    {state next : Waiting × List String}
    (released : consumers.foldlM (Waiting.release? name) state = some next)
    : consumers.foldl (Waiting.release name) state = next := by
  induction consumers generalizing state with
  | nil => exact Option.some.inj released
  | cons head rest ih =>
      rw [List.foldlM_cons] at released
      obtain ⟨middle, first, others⟩ := Option.bind_eq_some_iff.mp released
      unfold Waiting.release? at first
      split at first
      · rw [List.foldl_cons, Option.some.inj first]
        exact ih others
      · simp at first

/-- A count that comes to its end is the count. -/
theorem countMade_of_countMade? {g : Graph} {fuel count : Nat} {w : Waiting} {ready : List String}
    (ends : g.countMade? fuel w ready = some count)
    : g.countMade fuel w ready = count := by
  induction fuel generalizing w ready count with
  | zero =>
      cases ready with
      | nil => exact Option.some.inj ends
      | cons name ready => simp [countMade?] at ends
  | succ fuel ih =>
      cases ready with
      | nil => exact Option.some.inj ends
      | cons name ready =>
          rw [countMade?] at ends
          obtain ⟨⟨next, more⟩, released, ends⟩ := Option.bind_eq_some_iff.mp ends
          obtain ⟨others, ends, same⟩ := Option.bind_eq_some_iff.mp ends
          rw [countMade, foldl_of_foldlM_release released, ← Option.some.inj same]
          simp only
          rw [ih ends]

-----------------------------------------------------------------------------------------------
-- Making orders
-----------------------------------------------------------------------------------------------

/-- Releasing the consumers of a tuple set lowers their counts, leaves all others, and makes those
ready that wait for nothing more.
Witness: induction on the consumers, whose outputs are distinct, so that each is lowered once.
-/
theorem foldlM_release (name : String) {count : Atomic → Nat} (lower : Atomic → Nat)
    (consumers : List Atomic) (w : Waiting) (ready : List String)
    (distinct : (consumers.map Atomic.output).Nodup)
    (counted : ∀ a ∈ consumers, w.count? a.output = some (count a))
    (falls : ∀ a ∈ consumers, count a = lower a + a.inputs.count name)
    : ∃ next,
        consumers.foldlM (Waiting.release? name) (w, ready)
          = some (next, ready ++ (consumers.filter (lower · == 0)).map Atomic.output)
        ∧ (∀ a ∈ consumers, next.count? a.output = some (lower a))
        ∧ ∀ output,
            output ∉ consumers.map Atomic.output → next.count? output = w.count? output := by
  induction consumers generalizing w ready with
  | nil => exact ⟨w, by simp, by simp, by simp⟩
  | cons head rest ih =>
      obtain ⟨absent, distinct⟩ := List.nodup_cons.mp distinct
      have here := counted head (by simp)
      have others : ∀ a ∈ rest,
          (w.set head.output (lower head)).count? a.output = some (count a) := by
        intro a member
        have differs : ¬ a.output = head.output := by
          intro same
          exact absent (same ▸ List.mem_map_of_mem member)
        rw [Waiting.count?_set, if_neg differs]
        exact counted a (by simp [member])
      obtain ⟨next, folded, lowered, kept⟩ := ih (w.set head.output (lower head))
        (if lower head == 0 then ready ++ [head.output] else ready)
        distinct others fun a member => falls a (by simp [member])
      refine ⟨next, ?_, ?_, ?_⟩
      · have released : Waiting.release? name (w, ready) head
            = some (w.set head.output (lower head),
                if lower head == 0 then ready ++ [head.output] else ready) := by
          simp [Waiting.release?, Waiting.release, here, falls head (by simp)]
        rw [List.foldlM_cons, released, Option.bind_eq_bind, Option.bind_some, folded]
        by_cases zero : (lower head == 0) = true
        · simp [zero]
        · simp [zero]
      · intro a member
        rcases List.mem_cons.mp member with rfl | later
        · rw [kept a.output absent, Waiting.count?_set, if_pos rfl, here]
          rfl
        · exact lowered a later
      · intro output outside
        simp only [List.map_cons, List.mem_cons, not_or] at outside
        rw [kept output outside.2, Waiting.count?_set, if_neg outside.1]

/-- Outputs in an order in which each one stands behind all it is made from. -/
structure MakingOrder (g : Graph) (order : List String) : Prop where
  unique : order.Nodup
  known : ∀ output ∈ order, output ∈ g.outputs
  after
    : ∀ a ∈ g.atomics,
        ∀ before later,
          order = before ++ a.output :: later → ∀ input ∈ a.inputs, input ∈ before

/-- One more tuple set can be made behind all its inputs. -/
theorem MakingOrder.snoc {g : Graph} {order : List String} {name : String}
    (ordered : g.MakingOrder order) (fresh : name ∉ order) (known : name ∈ g.outputs)
    (made : ∀ a ∈ g.atomics, a.output = name → ∀ input ∈ a.inputs, input ∈ order)
    : g.MakingOrder (order ++ [name]) := by
  refine ⟨?_, ?_, ?_⟩
  · have apart : ∀ output ∈ order, output ≠ name :=
      fun output member same => fresh (same ▸ member)
    simpa [List.nodup_append] using ⟨ordered.unique, apart⟩
  · intro output member
    rcases List.mem_append.mp member with old | new
    · exact ordered.known output old
    · exact List.mem_singleton.mp new ▸ known
  · intro a member before later split input read
    rcases List.eq_nil_or_concat later with rfl | ⟨rest, last, rfl⟩
    · obtain ⟨same, single⟩ := List.append_inj' split rfl
      have output : a.output = name := by simpa using single.symm
      exact same ▸ made a member output input read
    · have regrouped : order ++ [name] = (before ++ a.output :: rest) ++ [last] := by
        simpa using split
      obtain ⟨same, -⟩ := List.append_inj' regrouped rfl
      exact ordered.after a member before rest same input read

/-- The state of the count: what is made stands in order, what is ready or made are the tuple sets
that wait for nothing, and the counts are those of the reads that are still missing.
-/
structure Frontier (g : Graph) (made : List String) (w : Waiting) (ready : List String)
    : Prop where
  ordered : g.MakingOrder made
  fresh : (made ++ ready).Nodup
  known : ∀ output ∈ ready, output ∈ g.outputs
  counted : ∀ a ∈ g.atomics, w.count? a.output = some (a.missing made)
  free : ∀ a ∈ g.atomics, a.output ∈ ready → a.missing made = 0
  complete : ∀ a ∈ g.atomics, a.missing made = 0 → a.output ∈ made ++ ready

theorem Frontier.start {g : Graph} (distinct : g.outputs.Nodup) {counts : Waiting}
    (perm : counts.Perm g.waiting)
    : g.Frontier [] counts counts.ready := by
  have readyPerm : counts.ready.Perm g.waiting.ready := (perm.filter _).map Prod.fst
  have readyOutputs : g.waiting.ready.Sublist g.outputs := by
    have below := (List.filter_sublist (l := g.waiting) (p := (·.2 == 0))).map Prod.fst
    simpa [Waiting.ready, waiting, outputs, Function.comp_def] using below
  refine ⟨⟨List.nodup_nil, by simp, by simp⟩, ?_, ?_, ?_, ?_, ?_⟩
  · simpa using readyPerm.nodup_iff.mpr (readyOutputs.nodup distinct)
  · exact fun output member => readyOutputs.subset (readyPerm.subset member)
  · intro a member
    simpa [Atomic.missing] using count?_of_perm distinct perm member
  · intro a member ready
    obtain ⟨entry, passes, same⟩ := List.mem_map.mp (readyPerm.subset ready)
    obtain ⟨inWaiting, zero⟩ := List.mem_filter.mp passes
    obtain ⟨b, inAtomics, rfl⟩ := List.mem_map.mp inWaiting
    have equal : b = a := List.inj_on_of_nodup_map distinct inAtomics member same
    subst equal
    simpa [Atomic.missing] using zero
  · intro a member zero
    have none : a.inputs.length = 0 := by simpa [Atomic.missing] using zero
    refine readyPerm.mem_iff.mpr (List.mem_map.mpr ⟨(a.output, a.inputs.length), ?_, rfl⟩)
    exact List.mem_filter.mpr ⟨List.mem_map_of_mem member, by simp [none]⟩

/-- There is never more made and ready than the graph makes. -/
theorem Frontier.length_le {g : Graph} {made : List String} {w : Waiting} {ready : List String}
    (frontier : g.Frontier made w ready)
    : made.length + ready.length ≤ g.atomics.length := by
  have within : made ++ ready ⊆ g.outputs :=
    List.append_subset.mpr ⟨frontier.ordered.known, frontier.known⟩
  simpa [outputs] using (List.subperm_of_subset frontier.fresh within).length_le

theorem Frontier.head_fresh {g : Graph} {made : List String} {w : Waiting} {name : String}
    {ready : List String} (frontier : g.Frontier made w (name :: ready))
    : name ∉ made := by
  intro old
  exact (List.nodup_append.mp frontier.fresh).2.2 name old name (by simp) rfl

/-- What reads the first ready tuple set is neither made nor ready: it misses this very one. -/
theorem Frontier.reader_fresh {g : Graph} {made : List String} {w : Waiting} {name : String}
    {ready : List String} (frontier : g.Frontier made w (name :: ready)) {a : Atomic}
    (member : a ∈ g.atomics) (reads : name ∈ a.inputs)
    : a.output ∉ made ++ name :: ready := by
  intro old
  rcases List.mem_append.mp old with inMade | inReady
  · obtain ⟨before, later, split⟩ := List.append_of_mem inMade
    have earlier := frontier.ordered.after a member before later split name reads
    exact frontier.head_fresh (split ▸ List.mem_append_left _ earlier)
  · have zero := frontier.free a member inReady
    exact frontier.head_fresh (Atomic.missing_eq_zero.mp zero name reads)

/-- What reads the tuple set and waits for nothing more once it is made. -/
def released (g : Graph) (made : List String) (name : String) : List String :=
  ((g.consumersOf name).filter (Atomic.missing · (made ++ [name]) == 0)).map Atomic.output

theorem mem_released {g : Graph} {made : List String} {name output : String}
    : output ∈ g.released made name
      ↔ ∃ a ∈ g.atomics,
          a.output = output ∧ name ∈ a.inputs ∧ a.missing (made ++ [name]) = 0 := by
  simp only [released, List.mem_map, List.mem_filter, mem_consumersOf, beq_iff_eq]
  constructor
  · rintro ⟨a, ⟨⟨member, reads⟩, zero⟩, same⟩
    exact ⟨a, member, same, reads, zero⟩
  · rintro ⟨a, member, same, reads, zero⟩
    exact ⟨a, ⟨⟨member, reads⟩, zero⟩, same⟩

theorem nodup_outputs_consumersOf {g : Graph} (distinct : g.outputs.Nodup) (name : String)
    : ((g.consumersOf name).map Atomic.output).Nodup :=
  (List.filter_sublist.map Atomic.output).nodup distinct

/-- Making the first ready tuple set keeps the state of the count.
Witness: only its consumers miss less than before, and they miss it by the reads of it.
-/
theorem Frontier.make {g : Graph} {made : List String} {w : Waiting} {name : String}
    {ready : List String} (distinct : g.outputs.Nodup)
    (frontier : g.Frontier made w (name :: ready))
    : ∃ next,
        (g.consumersOf name).foldlM (Waiting.release? name) (w, ready)
          = some (next, ready ++ g.released made name)
        ∧ g.Frontier (made ++ [name]) next (ready ++ g.released made name) := by
  have fresh := frontier.head_fresh
  have unread : ∀ a : Atomic, name ∉ a.inputs → a.missing (made ++ [name]) = a.missing made := by
    intro a skips
    rw [a.missing_snoc fresh, List.count_eq_zero_of_not_mem skips, Nat.add_zero]
  obtain ⟨next, folded, lowered, kept⟩ :=
    foldlM_release name (Atomic.missing · (made ++ [name])) (g.consumersOf name) w ready
      (nodup_outputs_consumersOf distinct name)
      (fun a member => frontier.counted a (mem_consumersOf.mp member).1)
      fun a _ => a.missing_snoc fresh
  refine ⟨next, folded, ?_, ?_, ?_, ?_, ?_, ?_⟩
  · refine frontier.ordered.snoc fresh (frontier.known name (by simp)) ?_
    intro a member same
    exact Atomic.missing_eq_zero.mp (frontier.free a member (by simp [same]))
  · rw [← List.append_assoc, List.nodup_append]
    refine ⟨by simpa using frontier.fresh, ?_, ?_⟩
    · exact (List.filter_sublist.map Atomic.output).nodup (nodup_outputs_consumersOf distinct name)
    · intro output old other released same
      obtain ⟨a, inAtomics, rfl, reads, -⟩ := mem_released.mp released
      exact frontier.reader_fresh inAtomics reads (by simpa [same] using old)
  · intro output member
    rcases List.mem_append.mp member with old | later
    · exact frontier.known output (by simp [old])
    · obtain ⟨a, inAtomics, rfl, -, -⟩ := mem_released.mp later
      exact List.mem_map_of_mem inAtomics
  · intro a member
    by_cases reads : name ∈ a.inputs
    · exact lowered a (mem_consumersOf.mpr ⟨member, reads⟩)
    · have outside : a.output ∉ (g.consumersOf name).map Atomic.output := by
        intro inside
        obtain ⟨b, consumer, same⟩ := List.mem_map.mp inside
        obtain ⟨inAtomics, readsName⟩ := mem_consumersOf.mp consumer
        have equal : b = a := List.inj_on_of_nodup_map distinct inAtomics member same
        exact reads (equal ▸ readsName)
      rw [kept a.output outside, frontier.counted a member, unread a reads]
  · intro a member ready'
    rcases List.mem_append.mp ready' with old | later
    · have zero := frontier.free a member (by simp [old])
      have less := a.missing_snoc fresh
      omega
    · obtain ⟨b, inAtomics, same, -, zero⟩ := mem_released.mp later
      have equal : b = a := List.inj_on_of_nodup_map distinct inAtomics member same
      exact equal ▸ zero
  · intro a member zero
    by_cases reads : name ∈ a.inputs
    · have released := mem_released.mpr ⟨a, member, rfl, reads, zero⟩
      simp [released]
    · have before := frontier.complete a member ((unread a reads).symm.trans zero)
      simp only [List.mem_append, List.mem_cons] at before ⊢
      tauto

/-- A making order to which no tuple set can be added. -/
structure FullOrder (g : Graph) (order : List String) : Prop extends g.MakingOrder order where
  full : ∀ a ∈ g.atomics, (∀ input ∈ a.inputs, input ∈ order) → a.output ∈ order

/-- Once nothing is ready, all is made that can be. -/
theorem Frontier.fullOrder {g : Graph} {made : List String} {w : Waiting}
    (frontier : g.Frontier made w [])
    : g.FullOrder made := by
  refine ⟨frontier.ordered, fun a member all => ?_⟩
  simpa using frontier.complete a member (Atomic.missing_eq_zero.mpr all)

/-- With fuel for all atomics the count comes to its end, and is the length of a full order.
Witness: induction on the fuel, making the first ready tuple set in each step.
-/
theorem Frontier.exists_order {g : Graph} (distinct : g.outputs.Nodup) (fuel : Nat)
    {made : List String} {w : Waiting} {ready : List String}
    (frontier : g.Frontier made w ready) (enough : g.atomics.length ≤ made.length + fuel)
    : ∃ order count,
        g.FullOrder order
        ∧ g.countMade? fuel w ready = some count
        ∧ order.length = made.length + count := by
  induction fuel generalizing made w ready with
  | zero =>
      have none : ready = [] := by
        have := frontier.length_le
        exact List.length_eq_zero_iff.mp (by omega)
      subst none
      exact ⟨made, 0, frontier.fullOrder, rfl, rfl⟩
  | succ fuel ih =>
      cases ready with
      | nil => exact ⟨made, 0, frontier.fullOrder, rfl, rfl⟩
      | cons name ready =>
          obtain ⟨next, folded, frontier⟩ := frontier.make distinct
          obtain ⟨order, count, full, ends, length⟩ := ih frontier (by simp; omega)
          refine ⟨order, count + 1, full, ?_, ?_⟩
          · simp [countMade?, folded, ends]
          · simp only [length, List.length_append, List.length_singleton]
            omega

/-- In an order of all tuple sets each one has a rank, and what it is made from ranks lower.
Witness: the place in the order.
-/
theorem MakingOrder.exists_rank {g : Graph} {order : List String} (making : g.MakingOrder order)
    (all : order.length = g.atomics.length)
    : ∃ rank : String → Nat,
        (∀ a ∈ g.atomics, rank a.output < g.atomics.length)
        ∧ ∀ a ∈ g.atomics, ∀ input ∈ a.inputs, rank input < rank a.output := by
  have full : order.length = g.outputs.length := by simpa [outputs] using all
  have perm : order.Perm g.outputs :=
    (List.subperm_of_subset making.unique making.known).perm_of_length_le (Nat.le_of_eq full.symm)
  have inOrder : ∀ a ∈ g.atomics, a.output ∈ order := fun a member =>
    perm.mem_iff.mpr (List.mem_map_of_mem member)
  refine ⟨order.idxOf, ?_, ?_⟩
  · intro a member
    have below := List.idxOf_lt_length_of_mem (inOrder a member)
    simpa [full, outputs] using below
  · intro a member input read
    obtain ⟨before, later, split⟩ := List.append_of_mem (inOrder a member)
    have earlier := making.after a member before later split input read
    have absent : a.output ∉ before := by
      intro twice
      have unique := making.unique
      rw [split] at unique
      exact (List.nodup_append.mp unique).2.2 a.output twice a.output (by simp) rfl
    have place : order.idxOf input = before.idxOf input := by
      rw [split, List.idxOf_append_of_mem earlier]
    have behind : order.idxOf a.output = before.length := by
      rw [split, List.idxOf_append_of_notMem absent]
      simp
    have below := List.idxOf_lt_length_of_mem earlier
    change order.idxOf input < order.idxOf a.output
    omega

/-- The count comes to its end, in whatever order the counts are kept, and it is the length of a
full order.
-/
theorem exists_fullOrder {g : Graph} (distinct : g.outputs.Nodup) {counts : Waiting}
    (perm : counts.Perm g.waiting)
    : ∃ order,
        g.FullOrder order
        ∧ g.countMade? g.atomics.length counts counts.ready = some order.length := by
  obtain ⟨order, count, full, ends, length⟩ :=
    (Frontier.start distinct perm).exists_order distinct g.atomics.length (by simp)
  rw [List.length_nil, Nat.zero_add] at length
  exact ⟨order, full, by rw [ends, length]⟩

/-- In an ordered graph every tuple set has a rank below the number of atomics, and what it is made
from ranks lower.
-/
theorem exists_rank {g : Graph} (distinct : g.outputs.Nodup) (ordered : g.isOrdered = true)
    : ∃ rank : String → Nat,
        (∀ a ∈ g.atomics, rank a.output < g.atomics.length)
        ∧ ∀ a ∈ g.atomics, ∀ input ∈ a.inputs, rank input < rank a.output := by
  obtain ⟨order, full, ends⟩ := exists_fullOrder distinct (.refl g.waiting)
  have count : g.countMade g.atomics.length g.waiting g.waiting.ready = g.atomics.length := by
    simpa [isOrdered] using ordered
  exact full.exists_rank ((countMade_of_countMade? ends).symm.trans count)

end Graph

end DataflowPlan
