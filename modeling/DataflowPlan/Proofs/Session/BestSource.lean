import DataflowPlan.Proofs.Float.Product
import DataflowPlan.Proofs.Session.Progress
import DataflowPlan.Proofs.Session.Weighing

/-! The best source. One pass over the registered sources finds the least of the live ones by cost,
penalty and key, as long as all their costs are numbers. Zero times an infinite penalty factor is
none: a source of that cost is never better nor worse than another one.
-/

namespace DataflowPlan.Session

variable {s : Session} {stats : Statistics}

/-- The cost by which a source is ranked. -/
def sourceCost (s : Session) (stats : Statistics) (source : String × NodeId) : Float :=
  s.rankingCost stats source.1 source.2

def isPenalized (s : Session) (source : String × NodeId) : Bool :=
  s.penalized.contains source.1

/-- The cost, the penalty and the key of one source are less than those of the other, in this order
of weight.
-/
def Precedes (s : Session) (stats : Statistics) (one other : String × NodeId) : Prop :=
  s.sourceCost stats one < s.sourceCost stats other
  ∨ (s.sourceCost stats one == s.sourceCost stats other) = true
    ∧ (s.isPenalized one = false ∧ s.isPenalized other = true
      ∨ s.isPenalized one = s.isPenalized other ∧ one.1 < other.1)

/-- No other live source comes before it. -/
def Least (s : Session) (stats : Statistics) (best : String × NodeId) : Prop :=
  best ∈ s.liveSources ∧ ∀ other ∈ s.liveSources, other ≠ best → s.Precedes stats best other

-----------------------------------------------------------------------------------------------
-- The order of sources
-----------------------------------------------------------------------------------------------

/-- What sources of numeric cost are ordered by before their keys count. -/
def standing (s : Session) (stats : Statistics) (source : String × NodeId)
    : (Int ×ₗ Int ×ₗ Int) ×ₗ Bool :=
  toLex (Floats.place (s.sourceCost stats source).toModel.unpack, s.isPenalized source)

theorem Precedes.numbers {one other : String × NodeId} (before : s.Precedes stats one other)
    : (s.sourceCost stats one).isNaN = false ∧ (s.sourceCost stats other).isNaN = false := by
  rcases before with less | ⟨same, -⟩
  · exact Floats.isNaN_of_lt less
  · exact Floats.isNaN_of_beq same

section Order

variable {one other third : String × NodeId}

theorem standing_lt_iff (left : (s.sourceCost stats one).isNaN = false)
    (right : (s.sourceCost stats other).isNaN = false)
    : s.standing stats one < s.standing stats other
        ↔ s.sourceCost stats one < s.sourceCost stats other
          ∨ (s.sourceCost stats one == s.sourceCost stats other) = true
            ∧ s.isPenalized one = false ∧ s.isPenalized other = true := by
  rw [Floats.lt_iff_place left right, Floats.beq_iff_place left right, standing, standing,
    Prod.Lex.toLex_lt_toLex, Bool.lt_iff]

theorem precedes_iff (left : (s.sourceCost stats one).isNaN = false)
    (right : (s.sourceCost stats other).isNaN = false)
    : s.Precedes stats one other
        ↔ s.standing stats one < s.standing stats other
          ∨ s.standing stats one = s.standing stats other ∧ one.1 < other.1 := by
  have same : s.standing stats one = s.standing stats other
      ↔ (s.sourceCost stats one == s.sourceCost stats other) = true
        ∧ s.isPenalized one = s.isPenalized other := by
    rw [Floats.beq_iff_place left right, standing, standing, toLex_inj, Prod.mk.injEq]
  rw [standing_lt_iff left right, same, Precedes, and_or_left, or_assoc, and_assoc]

theorem Precedes.trans (first : s.Precedes stats one other)
    (second : s.Precedes stats other third)
    : s.Precedes stats one third := by
  obtain ⟨left, middle⟩ := first.numbers
  obtain ⟨-, right⟩ := second.numbers
  rw [precedes_iff left middle] at first
  rw [precedes_iff middle right] at second
  rw [precedes_iff left right]
  rcases first with less | ⟨same, keys⟩ <;> rcases second with less' | ⟨same', keys'⟩
  · exact .inl (less.trans less')
  · exact .inl (same' ▸ less)
  · exact .inl (same ▸ less')
  · exact .inr ⟨same.trans same', String.lt_trans keys keys'⟩

theorem Precedes.asymm (before : s.Precedes stats one other)
    : ¬ s.Precedes stats other one := by
  intro after
  obtain ⟨number, -⟩ := before.numbers
  rcases (precedes_iff number number).mp (before.trans after) with less | ⟨-, keys⟩
  · exact lt_irrefl _ less
  · exact String.lt_irrefl _ keys

/-- A rank comes before another one by cost, or for want of a penalty. -/
theorem before_rank_iff
    : (s.rank stats [] one.1 one.2).before (s.rank stats [] other.1 other.2) = true
        ↔ s.sourceCost stats one < s.sourceCost stats other
          ∨ (s.sourceCost stats one == s.sourceCost stats other) = true
            ∧ s.isPenalized one = false ∧ s.isPenalized other = true := by
  change Rank.before ⟨false, s.sourceCost stats one, s.isPenalized one⟩
    ⟨false, s.sourceCost stats other, s.isPenalized other⟩ = true ↔ _
  have exclusive : (s.sourceCost stats one == s.sourceCost stats other) = true →
      ¬ s.sourceCost stats one < s.sourceCost stats other := by
    rw [Floats.beq_iff, Floats.lt_iff]
    intro same less
    simp [same] at less
  unfold Rank.before
  cases same : s.sourceCost stats one == s.sourceCost stats other with
  | true => simp [bne, same, exclusive same]
  | false => simp [bne, same]

theorem numbers_of_before
    (before : (s.rank stats [] one.1 one.2).before (s.rank stats [] other.1 other.2) = true)
    : (s.sourceCost stats one).isNaN = false ∧ (s.sourceCost stats other).isNaN = false := by
  rcases before_rank_iff.mp before with less | ⟨same, -⟩
  · exact Floats.isNaN_of_lt less
  · exact Floats.isNaN_of_beq same

theorem precedes_of_before
    (before : (s.rank stats [] one.1 one.2).before (s.rank stats [] other.1 other.2) = true)
    : s.Precedes stats one other :=
  (before_rank_iff.mp before).imp_right fun same => ⟨same.1, .inl same.2⟩

/-- If neither rank comes before the other one, the keys decide. -/
theorem precedes_of_not_before (left : (s.sourceCost stats one).isNaN = false)
    (right : (s.sourceCost stats other).isNaN = false) (keys : one.1 < other.1)
    (notBefore
      : ¬ (s.rank stats [] other.1 other.2).before (s.rank stats [] one.1 one.2) = true)
    : s.Precedes stats one other := by
  rw [before_rank_iff, ← standing_lt_iff right left, not_lt] at notBefore
  rw [precedes_iff left right]
  exact notBefore.lt_or_eq.imp_right fun same => ⟨same, keys⟩

end Order

-----------------------------------------------------------------------------------------------
-- The pass over the sources
-----------------------------------------------------------------------------------------------

section Pass

variable {sources : List (String × NodeId)} {best found : String × NodeId}

/-- A source whose cost is no number stays the best one. -/
theorem foldl_better_of_isNaN (nan : (s.sourceCost stats best).isNaN = true)
    : sources.foldl (s.better stats []) (some best) = some best := by
  induction sources with
  | nil => rfl
  | cons head rest ih =>
      have notBefore : ¬ (s.rank stats [] head.1 head.2).before
          (s.rank stats [] best.1 best.2) = true := by
        intro before
        exact absurd (nan.symm.trans (numbers_of_before before).2) (by decide)
      rw [List.foldl_cons, better, if_neg notBefore]
      exact ih

/-- A source that is another one or comes before it comes before all that the other one does. -/
theorem Precedes.of_least (behind : s.Precedes stats one other)
    (least : one ≠ third → (s.sourceCost stats one).isNaN = true ∨ s.Precedes stats third one)
    : s.Precedes stats third other := by
  by_cases same : one = third
  · exact same ▸ behind
  · have above := (least same).resolve_left (Bool.eq_false_iff.mp behind.numbers.1)
    exact above.trans behind

/-- From a source of numeric cost on, the pass ends with one that comes before all others of numeric
cost.
Witness: induction on the sources; what is found so far comes before all that are left behind.
-/
theorem foldl_better_precedes (ascending : Ascending (best :: sources))
    (number : (s.sourceCost stats best).isNaN = false)
    (folded : sources.foldl (s.better stats []) (some best) = some found)
    : (s.sourceCost stats found).isNaN = false
      ∧ ∀ other ∈ best :: sources,
          other ≠ found →
            (s.sourceCost stats other).isNaN = true ∨ s.Precedes stats found other := by
  induction sources generalizing best with
  | nil =>
      obtain rfl := Option.some.inj folded
      refine ⟨number, fun other member different => ?_⟩
      exact absurd (List.mem_singleton.mp member) different
  | cons head rest ih =>
      rw [List.foldl_cons, better] at folded
      obtain ⟨keys, later⟩ := List.pairwise_cons.mp ascending
      split at folded
      · next before =>
          obtain ⟨headNumber, -⟩ := numbers_of_before before
          obtain ⟨foundNumber, least⟩ := ih later headNumber folded
          refine ⟨foundNumber, fun other member different => ?_⟩
          rcases List.mem_cons.mp member with rfl | inRest
          · -- what was best so far is left behind for the head
            exact .inr ((precedes_of_before before).of_least (least head List.mem_cons_self))
          · exact least other inRest different
      · next notBefore =>
          have shorter : Ascending (best :: rest) :=
            List.pairwise_cons.mpr
              ⟨fun other member => keys other (List.mem_cons_of_mem _ member), later.of_cons⟩
          obtain ⟨foundNumber, least⟩ := ih shorter number folded
          refine ⟨foundNumber, fun other member different => ?_⟩
          rcases List.mem_cons.mp member with rfl | inRest
          · exact least _ List.mem_cons_self different
          · rcases List.mem_cons.mp inRest with rfl | later
            · -- the head is left behind for what was best so far
              cases headNumber : (s.sourceCost stats other).isNaN with
              | true => exact .inl rfl
              | false =>
                  have behind := precedes_of_not_before number headNumber
                    (keys other List.mem_cons_self) notBefore
                  exact .inr (behind.of_least (least best List.mem_cons_self))
            · exact least other (List.mem_cons_of_mem _ later) different

end Pass

-----------------------------------------------------------------------------------------------
-- The choice
-----------------------------------------------------------------------------------------------

/-- The live source of the first key. -/
def First (s : Session) (first : String × NodeId) : Prop :=
  first ∈ s.liveSources ∧ ∀ other ∈ s.liveSources, other ≠ first → first.1 < other.1

theorem ascending_liveSources (s : Session) : Ascending s.liveSources :=
  s.sources.ascending.filter _

theorem First.split {first : String × NodeId} (isFirst : s.First first)
    : ∃ rest, s.liveSources = first :: rest := by
  obtain ⟨member, least⟩ := isFirst
  have ascending := s.ascending_liveSources
  cases sources : s.liveSources with
  | nil => simp [sources] at member
  | cons head rest =>
      rw [sources] at member least ascending
      rcases List.mem_cons.mp member with rfl | later
      · exact ⟨rest, rfl⟩
      · have above := (List.pairwise_cons.mp ascending).1 first later
        have below := least head List.mem_cons_self (by rintro rfl; exact String.lt_irrefl _ above)
        exact absurd (String.lt_trans above below) (String.lt_irrefl _)

theorem exists_first {source : String × NodeId} (live : source ∈ s.liveSources)
    : ∃ first, s.First first := by
  have ascending := s.ascending_liveSources
  cases sources : s.liveSources with
  | nil => simp [sources] at live
  | cons head rest =>
      rw [sources] at ascending
      refine ⟨head, ?_, ?_⟩
      · simp [sources]
      · intro other member different
        rw [sources] at member
        rcases List.mem_cons.mp member with rfl | later
        · exact absurd rfl different
        · exact (List.pairwise_cons.mp ascending).1 other later

theorem bestSource_of_isNaN {first : String × NodeId} (isFirst : s.First first)
    (nan : (s.sourceCost stats first).isNaN = true)
    : s.bestSource stats = some first := by
  obtain ⟨rest, sources⟩ := isFirst.split
  rw [bestSource, pick, sources]
  exact foldl_better_of_isNaN nan

/-- If the first live source has a numeric cost, the best one is the one that comes before all
others of numeric cost.
-/
theorem bestSource_eq_some_iff {first : String × NodeId} (isFirst : s.First first)
    (number : (s.sourceCost stats first).isNaN = false) (best : String × NodeId)
    : s.bestSource stats = some best
        ↔ best ∈ s.liveSources
          ∧ (s.sourceCost stats best).isNaN = false
          ∧ ∀ other ∈ s.liveSources,
              other ≠ best →
                (s.sourceCost stats other).isNaN = true ∨ s.Precedes stats best other := by
  have chosen {found : String × NodeId} (picked : s.bestSource stats = some found)
      : found ∈ s.liveSources ∧ (s.sourceCost stats found).isNaN = false
        ∧ ∀ other ∈ s.liveSources, other ≠ found →
            (s.sourceCost stats other).isNaN = true ∨ s.Precedes stats found other := by
    refine ⟨mem_of_pick picked, ?_⟩
    obtain ⟨rest, sources⟩ := isFirst.split
    have ascending := s.ascending_liveSources
    rw [bestSource, pick, sources] at picked
    rw [sources] at ascending ⊢
    exact foldl_better_precedes ascending number picked
  constructor
  · exact chosen
  · rintro ⟨live, isNumber, least⟩
    cases picked : s.bestSource stats with
    | none =>
        have empty := pick_eq_none_iff.mp picked
        have some := hasSources_iff.mpr ⟨best, live⟩
        exact absurd (empty.symm.trans some) (by decide)
    | some found =>
        obtain ⟨foundLive, foundNumber, foundLeast⟩ := chosen picked
        by_contra different
        have apart : found ≠ best := fun same => different (congrArg some same)
        have before := (least found foundLive apart).resolve_left
          (Bool.eq_false_iff.mp foundNumber)
        have after := (foundLeast best live apart.symm).resolve_left
          (Bool.eq_false_iff.mp isNumber)
        exact before.asymm after

/-- Where all costs are numbers, the best source is the least one. -/
theorem bestSource_eq_some_iff_least
    (numbers : ∀ source ∈ s.liveSources, (s.sourceCost stats source).isNaN = false)
    (best : String × NodeId)
    : s.bestSource stats = some best ↔ s.Least stats best := by
  have chosen_iff {first : String × NodeId} (isFirst : s.First first) :=
    bestSource_eq_some_iff isFirst (numbers first isFirst.1) best
  constructor
  · intro picked
    obtain ⟨first, isFirst⟩ := exists_first (mem_of_pick picked)
    obtain ⟨live, -, least⟩ := (chosen_iff isFirst).mp picked
    refine ⟨live, fun other member different => ?_⟩
    exact (least other member different).resolve_left
      (Bool.eq_false_iff.mp (numbers other member))
  · rintro ⟨live, least⟩
    obtain ⟨first, isFirst⟩ := exists_first live
    refine (chosen_iff isFirst).mpr ⟨live, numbers best live, fun other member different => ?_⟩
    exact .inr (least other member different)

-----------------------------------------------------------------------------------------------
-- Costs
-----------------------------------------------------------------------------------------------

/-- The source reads the set, and is ranked by the set's size in whole megabytes, times the penalty
factor if it is penalized. That is a number, except that zero times infinity is none.
-/
structure Costs (s : Session) (stats : Statistics) (source : String × NodeId) (set : SetId)
    : Prop where
  reads : (s.node source.2).sourceSet = some set
  named : set.key = source.1
  cost
    : s.sourceCost stats source =
        if s.isPenalized source then
          Float.ofNat (stats.megabytes set.database set.name) * s.config.penaltyFactor
        else Float.ofNat (stats.megabytes set.database set.name)
  isNaN_iff
    : (s.sourceCost stats source).isNaN = true
        ↔ s.isPenalized source = true
          ∧ stats.megabytes set.database set.name = 0
          ∧ s.config.penaltyFactor.isInf = true

theorem one_le_penaltyFactor {config : PlannerConfig} (valid : config.validate = .ok ())
    : 1.0 ≤ config.penaltyFactor := by
  unfold PlannerConfig.validate at valid
  split at valid
  · simp at valid
  · split at valid
    · simp at valid
    · split at valid
      · simp at valid
      · next least => simpa using least

theorem costs_of_source (valid : s.config.validate = .ok ()) {source : String × NodeId}
    {set : SetId} (reads : (s.node source.2).sourceSet = some set) (named : set.key = source.1)
    : s.Costs stats source set := by
  have cost : s.sourceCost stats source =
      if s.isPenalized source then
        Float.ofNat (stats.megabytes set.database set.name) * s.config.penaltyFactor
      else Float.ofNat (stats.megabytes set.database set.name) := by
    unfold sourceCost rankingCost PhysicalNode.cost
    rw [reads]
    rfl
  refine ⟨reads, named, cost, ?_⟩
  rw [cost]
  cases penalized : s.isPenalized source with
  | false =>
      rw [if_neg (by decide), Floats.isNaN_ofNat]
      simp
  | true =>
      rw [if_pos rfl, Floats.isNaN_mul_iff (Floats.zero_le_ofNat _) (one_le_penaltyFactor valid),
        Floats.ofNat_beq_zero_iff]
      simp

/-- A penalized source that comes before an unpenalized one costs less even without the penalty. -/
theorem Costs.lt_of_precedes (valid : s.config.validate = .ok ()) {one other : String × NodeId}
    {set set' : SetId} (costs : s.Costs stats one set) (costs' : s.Costs stats other set')
    (penalized : s.isPenalized one = true) (free : s.isPenalized other = false)
    (before : s.Precedes stats one other)
    : (s.node one.2).cost stats < (s.node other.2).cost stats := by
  obtain ⟨number, -⟩ := before.numbers
  have less : s.sourceCost stats one < s.sourceCost stats other := by
    refine before.resolve_right ?_
    simp [penalized, free]
  rw [costs.cost, if_pos penalized] at number less
  rw [costs'.cost, free, if_neg (by decide)] at less
  rw [PhysicalNode.cost, PhysicalNode.cost, costs.reads, costs'.reads]
  exact Floats.lt_of_le_of_lt
    (Floats.le_mul (Floats.zero_le_ofNat _) (one_le_penaltyFactor valid) number) less

-----------------------------------------------------------------------------------------------
-- Every run
-----------------------------------------------------------------------------------------------

/-- How the best source is chosen. It is the least live source by cost, penalty and key if all costs
are numbers. If only the first live source has to have one, it is the least of those that have one;
and if the first one has none, it is that one.
-/
structure Selects (s : Session) (stats : Statistics) : Prop where
  none_iff
    : s.bestSource stats = none
        ↔ ∀ key id, s.sources.get? key = some id → (s.node id).active = []
  costs : ∀ source ∈ s.liveSources, ∃ set, s.Costs stats source set
  least
    : (∀ source ∈ s.liveSources, (s.sourceCost stats source).isNaN = false) →
        ∀ best, s.bestSource stats = some best ↔ s.Least stats best
  numeric
    : ∀ first,
        s.First first →
          (s.sourceCost stats first).isNaN = false →
            ∀ best,
              s.bestSource stats = some best
                ↔ best ∈ s.liveSources
                  ∧ (s.sourceCost stats best).isNaN = false
                  ∧ ∀ other ∈ s.liveSources,
                      other ≠ best →
                        (s.sourceCost stats other).isNaN = true ∨ s.Precedes stats best other
  unordered
    : ∀ first,
        s.First first →
          (s.sourceCost stats first).isNaN = true → s.bestSource stats = some first
  unpenalized
    : ∀ best other,
        s.bestSource stats = some best →
          (s.sourceCost stats best).isNaN = false →
            other ∈ s.liveSources →
              s.isPenalized best = true →
                s.isPenalized other = false →
                  (s.node best.2).cost stats < (s.node other.2).cost stats

theorem selects_of_keyed (valid : s.config.validate = .ok ()) (keyed : s.Keyed)
    : s.Selects stats := by
  have costs : ∀ source ∈ s.liveSources, ∃ set, s.Costs stats source set := by
    rintro ⟨key, id⟩ member
    obtain ⟨set, reads, named⟩ := keyed.entries key id (mem_liveSources_iff.mp member).1
    exact ⟨set, costs_of_source valid reads named⟩
  refine ⟨?_, costs, bestSource_eq_some_iff_least, fun _ => bestSource_eq_some_iff,
    fun _ => bestSource_of_isNaN, ?_⟩
  · rw [bestSource, pick_eq_none_iff, Bool.eq_false_iff, ne_eq, hasSources_iff]
    constructor
    · intro none key id registered
      by_contra live
      exact none ⟨(key, id), mem_liveSources_iff.mpr ⟨registered, live⟩⟩
    · rintro spent ⟨⟨key, id⟩, member⟩
      obtain ⟨registered, live⟩ := mem_liveSources_iff.mp member
      exact live (spent key id registered)
  · intro best other picked number member penalized free
    obtain ⟨set, bestCosts⟩ := costs best (mem_of_pick picked)
    obtain ⟨set', otherCosts⟩ := costs other member
    refine bestCosts.lt_of_precedes valid otherCosts penalized free ?_
    have different : other ≠ best := by
      rintro rfl
      simp [free] at penalized
    have otherNumber : ¬ (s.sourceCost stats other).isNaN = true := by
      rw [otherCosts.isNaN_iff]
      simp [free]
    obtain ⟨first, isFirst⟩ := exists_first member
    cases firstNumber : (s.sourceCost stats first).isNaN with
    | true =>
        obtain rfl := Option.some.inj (picked.symm.trans (bestSource_of_isNaN isFirst firstNumber))
        exact absurd firstNumber (Bool.eq_false_iff.mp number)
    | false =>
        obtain ⟨-, -, least⟩ := (bestSource_eq_some_iff isFirst firstNumber best).mp picked
        exact (least other member different).resolve_left otherNumber

/-- In every session that a run of a graph leads to whose computations are filed under their own
names, with any statistics, the best source is the least one as far as costs are numbers.
-/
theorem selects_of_run {g : Graph} {first m : Session} {jobId : String} {config : PlannerConfig}
    (started : Session.start jobId g config = .ok first) (named : g.Named)
    (calls : List (Call × Statistics)) (waits : (first.run calls).2.Waits m) (stats : Statistics)
    : m.Selects stats := by
  obtain ⟨beginning, -, rfl, -⟩ := beginning_of_start started
  obtain ⟨followed, reaches, keyed⟩ := beginning.keyed_of_waits named calls waits
  refine selects_of_keyed ?_ keyed
  rw [reaches.descends.config]
  exact validate_of_start started

/-- One side of the first join is planned, and the other one is refused. -/
def refusedOnce : List (Call × Statistics) := [(.nextStages, .empty), (.nextStages, .empty)]

/-- A refused source comes after one of the same cost, if the factor is finite. -/
theorem twoJoins_selects
    : ∃ first best,
        Session.start "job" twoJoins .standard = .ok first
        ∧ (first.run refusedOnce).2.Selects .empty
        ∧ (first.run refusedOnce).2.bestSource .empty = some best
        ∧ best.1 = "db:c"
        ∧ (first.run refusedOnce).2.Least .empty best
        ∧ ("db:b" ∈ (first.run refusedOnce).2.liveKeys)
        ∧ (first.run refusedOnce).2.penalized.contains "db:b" = true := by
  have evaluated : (Session.start "job" twoJoins .standard).toOption.any (fun first =>
      let m := (first.run refusedOnce).2
      decide ((m.bestSource .empty).map Prod.fst = some "db:c")
        && m.liveSources.all (fun source => !(m.sourceCost .empty source).isNaN)
        && decide ("db:b" ∈ m.liveKeys)
        && m.penalized.contains "db:b") = true := by
    decide +kernel
  obtain ⟨first, started, evaluated⟩ := Except.toOption_any_iff.mp evaluated
  simp only [Bool.and_eq_true, decide_eq_true_eq, List.all_eq_true, Bool.not_eq_eq_eq_not,
    Bool.not_true] at evaluated
  obtain ⟨⟨⟨keyed, numbers⟩, live⟩, penalized⟩ := evaluated
  obtain ⟨best, picked, key⟩ := Option.map_eq_some_iff.mp keyed
  have selects := selects_of_run started (Graph.named_ofLists _ _) refusedOnce .here .empty
  exact ⟨first, best, started, selects, picked, key, (selects.least numbers best).mp picked, live,
    penalized⟩

/-- Settings by which a penalty makes every cost but zero infinite. -/
def endlessPenalty : PlannerConfig := { PlannerConfig.standard with penaltyFactor := 1.0 / 0.0 }

/-- A refused source of cost zero stays the best one, although one of the same cost was not refused.
-/
theorem twoJoins_refusedBest
    : ∃ first best other,
        endlessPenalty.validate = .ok ()
        ∧ Session.start "job" twoJoins endlessPenalty = .ok first
        ∧ (first.run refusedOnce).2.bestSource .empty = some best
        ∧ other ∈ (first.run refusedOnce).2.liveSources
        ∧ (first.run refusedOnce).2.isPenalized best = true
        ∧ (first.run refusedOnce).2.isPenalized other = false
        ∧ ((first.run refusedOnce).2.node other.2).cost .empty
          ≤ ((first.run refusedOnce).2.node best.2).cost .empty
        ∧ ¬ (first.run refusedOnce).2.Least .empty best := by
  have evaluated : (Session.start "job" twoJoins endlessPenalty).toOption.any (fun first =>
      let m := (first.run refusedOnce).2
      (m.bestSource .empty).any fun best =>
        m.isPenalized best
          && (m.sourceCost .empty best).isNaN
          && m.liveSources.any fun other =>
            !m.isPenalized other
              && decide ((m.node other.2).cost .empty ≤ (m.node best.2).cost .empty)) = true := by
    decide +kernel
  obtain ⟨first, started, evaluated⟩ := Except.toOption_any_iff.mp evaluated
  simp only [Option.any_eq_true, List.any_eq_true, Bool.and_eq_true, decide_eq_true_eq,
    Bool.not_eq_eq_eq_not, Bool.not_true] at evaluated
  obtain ⟨best, picked, ⟨penalized, nan⟩, other, live, free, cheap⟩ := evaluated
  refine ⟨first, best, other, by decide, started, picked, live, penalized, free, cheap, ?_⟩
  rintro ⟨-, least⟩
  have different : other ≠ best := by
    rintro rfl
    simp [free] at penalized
  exact absurd (nan.symm.trans (least other live different).numbers.1) (by decide)

end DataflowPlan.Session
