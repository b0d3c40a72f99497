import Mathlib.Data.List.Sort
import Mathlib.Tactic.Ring

/-!
# Reading a log in pages

A log is ordered by time.  A page is the first `size` records of what is left, and what is left
behind a page is what is later than its latest record.  A page that ends between two records of one
time loses the second one, so the pages give the whole log exactly when none of them does.

A log may also grow at its end, in the order of its times, while it is read, one page an instant.  A
record that appears later with a time already passed is never read.  `Whole` says that this happens
at no page (`Reads.whole_iff`).
-/

namespace CopyTrade.Foundation

section

variable {R : Type} (time : R → ℕ)

def latest (records : List R) : ℕ := (records.map time).foldr max 0

/-- No page of the log ends between two records of one time. -/
def PagesClean (size : ℕ) (log : List R) : Prop :=
  ∀ n a b, log[(n + 1) * size - 1]? = some a → log[(n + 1) * size]? = some b → time a ≠ time b

variable {time}

theorem time_le_latest {record : R} {records : List R} (h : record ∈ records) :
    time record ≤ latest time records := by
  induction records with
  | nil => cases h
  | cons first rest ih =>
    rcases List.mem_cons.mp h with rfl | h
    · exact le_max_left _ _
    · exact (ih h).trans (le_max_right _ _)

theorem exists_time_eq_latest {records : List R} (h : records ≠ []) :
    ∃ record ∈ records, time record = latest time records := by
  induction records with
  | nil => exact absurd rfl h
  | cons first rest ih =>
    rcases eq_or_ne rest [] with rfl | hrest
    · exact ⟨first, List.mem_cons_self, (max_eq_left (Nat.zero_le _)).symm⟩
    · obtain ⟨record, hrecord, heq⟩ := ih hrest
      rcases le_total (latest time rest) (time first) with hle | hle
      · exact ⟨first, List.mem_cons_self, (max_eq_left hle).symm⟩
      · exact ⟨record, List.mem_cons_of_mem _ hrecord, heq.trans (max_eq_right hle).symm⟩

theorem latest_le {bound : ℕ} {records : List R} (h : ∀ record ∈ records, time record ≤ bound) :
    latest time records ≤ bound := by
  induction records with
  | nil => exact Nat.zero_le _
  | cons first rest ih =>
    exact max_le (h first List.mem_cons_self) (ih fun record hr => h record (List.mem_cons_of_mem _ hr))

variable (time)

def behind (size : ℕ) (log : List R) : List R :=
  log.filter fun record => decide (latest time (log.take size) < time record)

theorem length_behind_lt {size : ℕ} {log : List R} (h : log.take size ≠ []) :
    (behind time size log).length < log.length := by
  cases log with
  | nil => exact absurd List.take_nil h
  | cons record rest =>
    cases size with
    | zero => exact absurd List.take_zero h
    | succ size =>
      -- the first record is not later than the page it is on
      have hfirst : ¬ latest time ((record :: rest).take (size + 1)) < time record :=
        Nat.not_lt.mpr (time_le_latest List.mem_cons_self)
      unfold behind
      rw [List.filter_cons_of_neg (by rw [decide_eq_true_eq]; exact hfirst)]
      exact Nat.lt_succ_of_le (List.length_filter_le _ _)

def paged (size : ℕ) (log : List R) : List R :=
  if log.take size = [] then [] else log.take size ++ paged size (behind time size log)
termination_by log.length
decreasing_by exact length_behind_lt time ‹_›

variable {time}

variable {size : ℕ} {log : List R}

theorem latest_take (hsorted : log.Pairwise fun a b => time a ≤ time b) {last : R}
    (h : log[size]? = some last) : latest time (log.take (size + 1)) = time last := by
  obtain ⟨hsize, rfl⟩ := List.getElem?_eq_some_iff.mp h
  apply le_antisymm
  · apply latest_le
    intro record hrecord
    obtain ⟨i, hi, rfl⟩ := List.mem_take_iff_getElem.mp hrecord
    rcases Nat.lt_or_ge i size with hlt | hge
    · exact List.pairwise_iff_getElem.mp hsorted i size _ hsize hlt
    · have : i = size := by omega
      subst this
      exact le_rfl
  · exact time_le_latest (List.mem_take_iff_getElem.mpr ⟨size, by omega, rfl⟩)

theorem behind_eq (log : List R) : behind time size log =
    (log.drop size).filter fun record => decide (latest time (log.take size) < time record) := by
  have hpage : (log.take size).filter
      (fun record => decide (latest time (log.take size) < time record)) = [] := by
    rw [List.filter_eq_nil_iff]
    intro record hrecord
    have := @time_le_latest R time _ _ hrecord
    simpa using this
  unfold behind
  conv_lhs => rw [← List.take_append_drop size log, List.filter_append]
  rw [List.take_append_drop, hpage, List.nil_append]

theorem behind_sublist (log : List R) : (behind time size log).Sublist (log.drop size) := by
  rw [behind_eq]
  exact List.filter_sublist

theorem paged_sublist (log : List R) : (paged time size log).Sublist log := by
  fun_induction paged time size log with
  | case1 log _ => exact List.nil_sublist log
  | case2 log hpage ih =>
    conv_rhs => rw [← List.take_append_drop size log]
    exact (List.Sublist.refl _).append (ih.trans (behind_sublist log))

/-- Nothing behind the first page is lost when it does not end between two records of one time. -/
theorem behind_eq_drop_iff (hsize : 0 < size) (hsorted : log.Pairwise fun a b => time a ≤ time b) :
    behind time size log = log.drop size ↔
      ∀ a b, log[size - 1]? = some a → log[size]? = some b → time a ≠ time b := by
  obtain ⟨size, rfl⟩ : ∃ before, size = before + 1 := ⟨size - 1, by omega⟩
  rw [Nat.add_sub_cancel]
  rw [behind_eq, List.filter_eq_self]
  constructor
  · intro hlater a b ha hb
    have hb := List.mem_iff_getElem?.mpr ⟨0, (List.getElem?_drop ..).trans hb⟩
    have := of_decide_eq_true (hlater b hb)
    rw [latest_take hsorted ha] at this
    exact this.ne
  · intro hboundary record hrecord
    obtain ⟨i, hi⟩ := List.mem_iff_getElem?.mp hrecord
    rw [List.getElem?_drop] at hi
    obtain ⟨hlength, rfl⟩ := List.getElem?_eq_some_iff.mp hi
    have hlast : log[size]? = some log[size] := List.getElem?_eq_getElem (by omega)
    have hnext : log[size + 1]? = some log[size + 1] := List.getElem?_eq_getElem (by omega)
    have hne := hboundary _ _ hlast hnext
    have hle := List.pairwise_iff_getElem.mp hsorted size (size + 1) (by omega) (by omega) (by omega)
    have hfrom : time log[size + 1] ≤ time log[size + 1 + i] := by
      rcases Nat.eq_zero_or_pos i with rfl | hpos
      · exact le_rfl
      · exact List.pairwise_iff_getElem.mp hsorted _ _ (by omega) hlength (by omega)
    rw [decide_eq_true_eq, latest_take hsorted hlast]
    omega

theorem pagesClean_iff (hsize : 0 < size) (log : List R) : PagesClean time size log ↔
    (∀ a b, log[size - 1]? = some a → log[size]? = some b → time a ≠ time b) ∧
      PagesClean time size (log.drop size) := by
  have hindex : ∀ n, size + ((n + 1) * size - 1) = (n + 1 + 1) * size - 1 ∧
      size + (n + 1) * size = (n + 1 + 1) * size := by
    intro n
    have : (n + 1 + 1) * size = size + (n + 1) * size := by ring
    have : size ≤ (n + 1) * size := Nat.le_mul_of_pos_left size n.succ_pos
    omega
  constructor
  · intro h
    refine ⟨fun a b ha hb => h 0 a b (by rw [Nat.zero_add, Nat.one_mul]; exact ha)
      (by rw [Nat.zero_add, Nat.one_mul]; exact hb), fun n a b ha hb => ?_⟩
    rw [List.getElem?_drop] at ha hb
    exact h (n + 1) a b ((hindex n).1 ▸ ha) ((hindex n).2 ▸ hb)
  · rintro ⟨hfirst, hrest⟩ n a b ha hb
    cases n with
    | zero =>
      rw [Nat.zero_add, Nat.one_mul] at ha hb
      exact hfirst a b ha hb
    | succ n =>
      refine hrest n a b ?_ ?_
      · rw [List.getElem?_drop, (hindex n).1]
        exact ha
      · rw [List.getElem?_drop, (hindex n).2]
        exact hb

/-- **The pages give the whole log exactly when no page ends between two records of one time.** -/
theorem paged_eq_iff (hsize : 0 < size) (hsorted : log.Pairwise fun a b => time a ≤ time b) :
    paged time size log = log ↔ PagesClean time size log := by
  induction log using paged.induct time size with
  | case1 log hpage =>
    have hnil : log = [] := by
      rcases List.take_eq_nil_iff.mp hpage with hzero | hnil
      · omega
      · exact hnil
    subst hnil
    rw [paged, if_pos hpage]
    refine ⟨fun _ n a b ha => ?_, fun _ => rfl⟩
    rw [List.getElem?_nil] at ha
    cases ha
  | case2 log hpage ih =>
    have hwhole : paged time size log = log ↔
        paged time size (behind time size log) = log.drop size := by
      rw [paged, if_neg hpage]
      conv_lhs => rhs; rw [← List.take_append_drop size log]
      rw [List.append_cancel_left_eq]
    rw [hwhole, pagesClean_iff hsize, ← behind_eq_drop_iff hsize hsorted]
    constructor
    · intro heq
      have hbehind : behind time size log = log.drop size :=
        (behind_sublist log).antisymm (heq ▸ paged_sublist (behind time size log))
      refine ⟨hbehind, ?_⟩
      rw [← hbehind, ← ih (hsorted.filter _), heq, hbehind]
    · rintro ⟨hbehind, hclean⟩
      rw [← hbehind] at hclean
      rw [(ih (hsorted.filter _)).mpr hclean, hbehind]

end

structure GrowingLog (R : Type) (time : R → ℕ) where
  records : ℕ → List R
  grows : ∀ n, records n <+: records (n + 1)
  inOrder : ∀ n, (records n).Pairwise fun a b => time a ≤ time b

theorem filter_le_append_filter_lt {R : Type} {time : R → ℕ} (bound : ℕ) {records : List R}
    (h : records.Pairwise fun a b => time a ≤ time b) :
    (records.filter fun r => decide (time r ≤ bound)) ++
      (records.filter fun r => decide (bound < time r)) = records := by
  induction records with
  | nil => rfl
  | cons first rest ih =>
    obtain ⟨hfirst, hrest⟩ := List.pairwise_cons.mp h
    by_cases hle : time first ≤ bound
    · rw [List.filter_cons_of_pos (by rw [decide_eq_true_eq]; exact hle),
        List.filter_cons_of_neg (by rw [decide_eq_true_eq]; omega), List.cons_append, ih hrest]
    · have hnone : (rest.filter fun r => decide (time r ≤ bound)) = [] := by
        rw [List.filter_eq_nil_iff]
        intro r hr
        have := hfirst r hr
        rw [decide_eq_true_eq]
        omega
      have hall : (rest.filter fun r => decide (bound < time r)) = rest := by
        rw [List.filter_eq_self]
        intro r hr
        have := hfirst r hr
        rw [decide_eq_true_eq]
        omega
      rw [List.filter_cons_of_neg (by rw [decide_eq_true_eq]; exact hle), hnone,
        List.filter_cons_of_pos (by rw [decide_eq_true_eq]; omega), hall, List.nil_append]

namespace GrowingLog

variable {R : Type} {time : R → ℕ} (log : GrowingLog R time)

def within (n start last : ℕ) : List R :=
  (log.records n).filter fun record => decide (start ≤ time record ∧ time record ≤ last)

def page (size n start last : ℕ) : List R := (log.within n start last).take size

/-- The records of the pages that are read from an instant on, and the instant after them.  The
reading ends with an empty page or with one that reaches the end of the range; of an empty range
nothing is read. -/
inductive Reads (size last : ℕ) : ℕ → ℕ → List R → ℕ → Prop
  | nothing {n start : ℕ} : last < start → Reads size last n start [] n
  | empty {n start : ℕ} : start ≤ last → log.page size n start last = [] →
      Reads size last n start [] (n + 1)
  | final {n start : ℕ} : log.page size n start last ≠ [] →
      last ≤ latest time (log.page size n start last) →
      Reads size last n start (log.page size n start last) (n + 1)
  | more {n start k : ℕ} {rest : List R} : log.page size n start last ≠ [] →
      latest time (log.page size n start last) < last →
      Reads size last (n + 1) (latest time (log.page size n start last) + 1) rest k →
      Reads size last n start (log.page size n start last ++ rest) k

/-- Every page holds all records there will ever be up to the time of its latest one, and where
the last page is empty no record of the range appears after it. -/
inductive Whole (size last : ℕ) : ℕ → ℕ → Prop
  | nothing {n start : ℕ} : last < start → Whole size last n start
  | empty {n start : ℕ} : log.page size n start last = [] →
      (∀ m, n ≤ m → log.within m start last = []) → Whole size last n start
  | final {n start : ℕ} : log.page size n start last ≠ [] →
      last ≤ latest time (log.page size n start last) →
      (∀ m, n ≤ m → log.within m start last = log.page size n start last) →
      Whole size last n start
  | more {n start : ℕ} : log.page size n start last ≠ [] →
      latest time (log.page size n start last) < last →
      (∀ m, n ≤ m → log.within m start (latest time (log.page size n start last)) =
        log.page size n start last) →
      Whole size last (n + 1) (latest time (log.page size n start last) + 1) →
      Whole size last n start

variable {log}

variable {n last start : ℕ} {wire : List R}

variable {m size : ℕ} {record : R}

theorem records_initial (h : n ≤ m) : log.records n <+: log.records m := by
  induction h with
  | refl => exact List.prefix_rfl
  | step _ ih => exact ih.trans (log.grows _)

theorem within_initial (h : n ≤ m) (start last : ℕ) :
    log.within n start last <+: log.within m start last :=
  (records_initial h).filter _

theorem page_initial (h : n ≤ m) (size start last : ℕ) :
    log.page size n start last <+: log.within m start last :=
  (List.take_prefix _ _).trans (within_initial h start last)

theorem mem_within_iff :
    record ∈ log.within n start last ↔
      record ∈ log.records n ∧ start ≤ time record ∧ time record ≤ last := by
  unfold within
  rw [List.mem_filter, decide_eq_true_eq]

theorem within_eq_nil (h : last < start) : log.within n start last = [] := by
  unfold within
  rw [List.filter_eq_nil_iff]
  intro record _
  rw [decide_eq_true_eq]
  omega

theorem mem_page (h : record ∈ log.page size n start last) :
    start ≤ time record ∧ time record ≤ last :=
  (mem_within_iff.mp (List.mem_of_mem_take h)).2

theorem within_split {middle : ℕ} (hstart : start ≤ middle + 1) (hlast : middle ≤ last) :
    log.within n start last =
      log.within n start middle ++ log.within n (middle + 1) last := by
  have hsplit := @filter_le_append_filter_lt R time middle _
    ((log.inOrder n).filter fun record => decide (start ≤ time record ∧ time record ≤ last))
  unfold within
  rw [← hsplit, List.filter_filter, List.filter_filter]
  congr 1
  · refine List.filter_congr fun record _ => ?_
    rw [← Bool.decide_and, decide_eq_decide]
    omega
  · refine List.filter_congr fun record _ => ?_
    rw [← Bool.decide_and, decide_eq_decide]
    omega

theorem latest_page (h : log.page size n start last ≠ []) :
    start ≤ latest time (log.page size n start last) ∧
      latest time (log.page size n start last) ≤ last := by
  obtain ⟨record, hrecord, hlatest⟩ := @exists_time_eq_latest _ time _ h
  exact hlatest ▸ mem_page hrecord

theorem filter_page :
    ((log.page size n start last).filter fun record =>
      decide (time record ≤ latest time (log.page size n start last))) =
        log.page size n start last := by
  rw [List.filter_eq_self]
  intro record hrecord
  rw [decide_eq_true_eq]
  exact time_le_latest hrecord

theorem Reads.start_le {k : ℕ} (h : log.Reads size last n start wire k) :
    ∀ record ∈ wire, start ≤ time record := by
  induction h with
  | nothing _ | empty _ _ =>
    intro record hrecord
    cases hrecord
  | final _ _ => exact fun record hrecord => (mem_page hrecord).1
  | more hpage hlatest _ ih =>
    intro record hrecord
    rcases List.mem_append.mp hrecord with hrecord | hrecord
    · exact (mem_page hrecord).1
    · have := (latest_page hpage).1
      have := ih record hrecord
      omega

/-- **The pages hold all the log will ever have in the range exactly when they are whole.** -/
theorem Reads.whole_iff {k : ℕ} (h : log.Reads size last n start wire k) :
    log.Whole size last n start ↔ ∀ m, n ≤ m → log.within m start last <+: wire := by
  induction h with
  | nothing hover =>
    exact iff_of_true (.nothing hover) fun m _ => within_eq_nil hover ▸ List.prefix_rfl
  | @empty n start _ hpage =>
    constructor
    · intro hwhole m hm
      cases hwhole with
      | nothing hover => exact within_eq_nil hover ▸ List.prefix_rfl
      | empty _ hnone => exact hnone m hm ▸ List.prefix_rfl
      | final hother _ _ => exact absurd hpage hother
      | more hother _ _ _ => exact absurd hpage hother
    · intro hall
      exact .empty hpage fun m hm => List.prefix_nil.mp (hall m hm)
  | @final n start hpage hlast =>
    have hrange := latest_page hpage
    constructor
    · intro hwhole m hm
      cases hwhole with
      | nothing hover => omega
      | empty hother _ => exact absurd hother hpage
      | final _ _ hall => exact hall m hm ▸ List.prefix_rfl
      | more _ hother _ _ => omega
    · intro hall
      exact .final hpage hlast fun m hm =>
        ((page_initial hm size start last).sublist.antisymm (hall m hm).sublist).symm
  | @more n start k rest hpage hlast hreads ih =>
    obtain ⟨hfrom, hto⟩ := latest_page hpage
    constructor
    · intro hwhole m hm
      cases hwhole with
      | nothing hover => omega
      | empty hother _ => exact absurd hother hpage
      | final _ hother _ => omega
      | more _ _ hfirst hrest =>
        -- a later instant only adds records, so the one after the page is enough
        refine (within_initial (Nat.le_succ m) start last).trans ?_
        rw [within_split (by omega) hto, hfirst (m + 1) (by omega)]
        exact (List.prefix_append_right_inj _).mpr (ih.mp hrest (m + 1) (by omega))
    · intro hall
      have hfirst : ∀ m, n ≤ m →
          log.within m start (latest time (log.page size n start last)) =
            log.page size n start last := by
        intro m hm
        have hread := (hall m hm).filter fun record =>
          decide (time record ≤ latest time (log.page size n start last))
        have hleft : (log.within m start last).filter (fun record =>
            decide (time record ≤ latest time (log.page size n start last))) =
            log.within m start (latest time (log.page size n start last)) := by
          unfold within
          rw [List.filter_filter]
          refine List.filter_congr fun record _ => ?_
          rw [← Bool.decide_and, decide_eq_decide]
          omega
        have hright : (log.page size n start last ++ rest).filter (fun record =>
            decide (time record ≤ latest time (log.page size n start last))) =
            log.page size n start last := by
          rw [List.filter_append, filter_page, List.filter_eq_nil_iff.mpr, List.append_nil]
          intro record hrecord
          have := hreads.start_le record hrecord
          rw [decide_eq_true_eq]
          omega
        rw [hleft, hright] at hread
        refine hread.sublist.antisymm (List.IsPrefix.sublist ?_)
        have hinitial : log.page size n start last <+: log.within m start last :=
          page_initial hm size start last
        have hcut := hinitial.filter fun record =>
          decide (time record ≤ latest time (log.page size n start last))
        rwa [filter_page, hleft] at hcut
      refine .more hpage hlast hfirst (ih.mpr fun m hm => ?_)
      have hsplit := hall m (by omega)
      rw [within_split (by omega) hto, hfirst m (by omega)] at hsplit
      exact (List.prefix_append_right_inj _).mp hsplit

theorem Reads.mem_of_whole {k : ℕ} (h : log.Reads size last n start wire k)
    (hwhole : log.Whole size last n start) (hrecord : record ∈ log.records m)
    (hstart : start ≤ time record) (hlast : time record ≤ last) : record ∈ wire := by
  have hlater : record ∈ log.records (max n m) :=
    (records_initial (le_max_right n m)).subset hrecord
  exact (h.whole_iff.mp hwhole _ (le_max_left n m)).subset
    (mem_within_iff.mpr ⟨hlater, hstart, hlast⟩)

def Covers (log : GrowingLog R time) (Done : R → Prop) (first bound : ℕ) : Prop :=
  ∀ n, ∀ record ∈ log.records n, first ≤ time record → time record < bound → Done record

theorem Covers.mono {Done : R → Prop} {first bound bound' : ℕ} (h : log.Covers Done first bound)
    (hle : bound' ≤ bound) : log.Covers Done first bound' :=
  fun n record hrecord hfirst hbound => h n record hrecord hfirst (hbound.trans_le hle)

/-- **A whole reading goes on where the last one ended.**  After it nothing up to the end of its
range is left. -/
theorem Covers.extend {Done Done' : R → Prop} {first k : ℕ} (h : log.Covers Done first start)
    (hkeep : ∀ record, Done record → Done' record) (hreads : log.Reads size last n start wire k)
    (hwhole : log.Whole size last n start) (hwire : ∀ record ∈ wire, Done' record) :
    log.Covers Done' first (max start (last + 1)) := by
  intro m record hrecord hfirst hbound
  rcases Nat.lt_or_ge (time record) start with hbefore | hfrom
  · exact hkeep record (h m record hrecord hfirst hbefore)
  · exact hwire record (hreads.mem_of_whole hwhole hrecord hfrom (by omega))

end GrowingLog

end CopyTrade.Foundation
