import Mathlib.Data.List.Basic

/-!
# Tickets

Places hold tickets, each at most one, and a log says what has become of the tickets; some of its
entries close the ticket they name.  The tickets are balanced where every one the log names is held
or closed and none is both.  A change of what is held that writes further entries keeps the balance
where it closes what it lets go (`TicketsBalanced.step`).
-/

namespace CopyTrade.Foundation

variable {P T E : Type*}

def TicketHeld (held : P → Option T) (ticket : T) : Prop := ∃ place, held place = some ticket

def TicketLogged (log : List (T × E)) (ticket : T) : Prop := ∃ entry, (ticket, entry) ∈ log

def TicketClosed (closes : E → Prop) (log : List (T × E)) (ticket : T) : Prop :=
  ∃ entry, (ticket, entry) ∈ log ∧ closes entry

def TicketUnused (held : P → Option T) (log : List (T × E)) (ticket : T) : Prop :=
  ¬ TicketHeld held ticket ∧ ¬ TicketLogged log ticket

variable {log : List (T × E)} {ticket : T} {closes : E → Prop} {held : P → Option T}

theorem logged_append {events : List (T × E)} :
    TicketLogged (log ++ events) ticket ↔ TicketLogged log ticket ∨ TicketLogged events ticket := by
  simp only [TicketLogged, List.mem_append, exists_or]

theorem closed_append {events : List (T × E)} :
    TicketClosed closes (log ++ events) ticket ↔
      TicketClosed closes log ticket ∨ TicketClosed closes events ticket := by
  simp only [TicketClosed, List.mem_append, or_and_right, exists_or]

theorem TicketClosed.logged (h : TicketClosed closes log ticket) : TicketLogged log ticket := by
  obtain ⟨entry, hentry, -⟩ := h
  exact ⟨entry, hentry⟩

/-- Every ticket the log names is held or closed, none is both, and none is held twice. -/
structure TicketsBalanced (closes : E → Prop) (held : P → Option T) (log : List (T × E)) : Prop where
  kept : ∀ ticket, TicketLogged log ticket → ¬ TicketClosed closes log ticket → TicketHeld held ticket
  unclosed : ∀ ticket, TicketHeld held ticket → ¬ TicketClosed closes log ticket
  once : ∀ {place other : P} {ticket : T},
    held place = some ticket → held other = some ticket → place = other

/-- A change of what is held, with the entries it writes: what is held after it was held before or
is new, and what is let go or named is held after it or closed, and not both. -/
structure Accounted (closes : E → Prop) (held held' : P → Option T) (log events : List (T × E)) :
    Prop where
  source : ∀ ticket, TicketHeld held' ticket → TicketHeld held ticket ∨ ¬ TicketLogged log ticket
  stays : ∀ ticket, TicketHeld held ticket → TicketLogged log ticket → ¬ TicketClosed closes events ticket →
    TicketHeld held' ticket
  named : ∀ ticket, TicketLogged events ticket → ¬ TicketClosed closes events ticket → TicketHeld held' ticket
  released : ∀ ticket, TicketClosed closes events ticket → ¬ TicketHeld held' ticket
  once : ∀ {place other : P} {ticket : T},
    held' place = some ticket → held' other = some ticket → place = other

/-- **The rule of a change.**  A change that accounts for its tickets keeps the balance. -/
theorem TicketsBalanced.step {held' : P → Option T} {events : List (T × E)}
    (h : TicketsBalanced closes held log) (hchange : Accounted closes held held' log events) :
    TicketsBalanced closes held' (log ++ events) where
  kept := by
    intro ticket hlogged hopen
    rw [closed_append, not_or] at hopen
    rcases logged_append.mp hlogged with hbefore | hnamed
    · exact hchange.stays ticket (h.kept ticket hbefore hopen.1) hbefore hopen.2
    · exact hchange.named ticket hnamed hopen.2
  unclosed := by
    intro ticket hheld hclosed
    rcases closed_append.mp hclosed with hbefore | hafter
    · rcases hchange.source ticket hheld with hold | hnew
      · exact h.unclosed ticket hold hbefore
      · exact hnew hbefore.logged
    · exact hchange.released ticket hafter hheld
  once := hchange.once

theorem TicketsBalanced.of_once (h : ∀ {place other : P} {ticket : T},
      held place = some ticket → held other = some ticket → place = other) :
    TicketsBalanced closes held ([] : List (T × E)) where
  kept := by
    rintro ticket ⟨entry, hentry⟩ _
    cases hentry
  unclosed := by
    rintro ticket _ ⟨entry, hentry, _⟩
    cases hentry
  once := h

theorem TicketsBalanced.congr {log' : List (T × E)} (h : TicketsBalanced closes held log)
    (hlog : ∀ entry, entry ∈ log' ↔ entry ∈ log) : TicketsBalanced closes held log' := by
  have hlogged (ticket : T) : TicketLogged log' ticket ↔ TicketLogged log ticket := by
    simp only [TicketLogged, hlog]
  have hclosed (ticket : T) : TicketClosed closes log' ticket ↔ TicketClosed closes log ticket := by
    simp only [TicketClosed, hlog]
  constructor
  · intro ticket
    rw [hlogged, hclosed]
    exact h.kept ticket
  · intro ticket
    rw [hclosed]
    exact h.unclosed ticket
  · exact h.once

theorem TicketsBalanced.unchanged (h : TicketsBalanced closes held log) :
    Accounted closes held held log [] where
  source := fun _ hheld => .inl hheld
  stays := fun _ hheld _ _ => hheld
  named := by
    rintro ticket ⟨entry, hentry⟩
    cases hentry
  released := by
    rintro ticket ⟨entry, hentry, -⟩
    cases hentry
  once := h.once

theorem logged_singleton {named : T} {entry : E} :
    TicketLogged [(ticket, entry)] named ↔ named = ticket := by
  simp [TicketLogged]

theorem closed_singleton {named : T} {entry : E} :
    TicketClosed closes [(ticket, entry)] named ↔ named = ticket ∧ closes entry := by
  simp only [TicketClosed, List.mem_singleton, Prod.mk.injEq]
  constructor
  · rintro ⟨_, ⟨rfl, rfl⟩, hclose⟩
    exact ⟨rfl, hclose⟩
  · rintro ⟨rfl, hclose⟩
    exact ⟨entry, ⟨rfl, rfl⟩, hclose⟩

variable [DecidableEq P] {closes : E → Prop} {held : P → Option T} {log : List (T × E)}
  {place other : P} {ticket : T} {entry : E}

theorem update_eq_some_iff {value : Option T} :
    Function.update held place value other = some ticket ↔
      other = place ∧ value = some ticket ∨ other ≠ place ∧ held other = some ticket := by
  by_cases h : other = place
  · subst h
    simp
  · simp [h]

theorem TicketsBalanced.take (h : TicketsBalanced closes held log) (hplace : held place = none)
    (hunused : TicketUnused held log ticket) (hopen : ¬ closes entry) :
    Accounted closes held (Function.update held place (some ticket)) log [(ticket, entry)] where
  source := by
    rintro named ⟨other, hother⟩
    rcases update_eq_some_iff.mp hother with ⟨-, hnew⟩ | ⟨-, hold⟩
    · cases hnew
      exact .inr hunused.2
    · exact .inl ⟨other, hold⟩
  stays := by
    rintro named ⟨other, hother⟩ - -
    refine ⟨other, update_eq_some_iff.mpr (.inr ⟨?_, hother⟩)⟩
    rintro rfl
    rw [hplace] at hother
    cases hother
  named := by
    intro named hnamed _
    obtain rfl := logged_singleton.mp hnamed
    exact ⟨place, update_eq_some_iff.mpr (.inl ⟨rfl, rfl⟩)⟩
  released := fun named hclosed => absurd (closed_singleton.mp hclosed).2 hopen
  once := by
    intro first second named hfirst hsecond
    rcases update_eq_some_iff.mp hfirst with ⟨rfl, hnew⟩ | ⟨-, hold⟩
    · cases hnew
      rcases update_eq_some_iff.mp hsecond with ⟨rfl, -⟩ | ⟨-, hheld⟩
      · rfl
      · exact absurd ⟨second, hheld⟩ hunused.1
    · rcases update_eq_some_iff.mp hsecond with ⟨rfl, hnew⟩ | ⟨-, hheld⟩
      · cases hnew
        exact absurd ⟨first, hold⟩ hunused.1
      · exact h.once hold hheld

theorem TicketsBalanced.release (h : TicketsBalanced closes held log)
    (hplace : held place = some ticket) (hclose : closes entry) :
    Accounted closes held (Function.update held place none) log [(ticket, entry)] where
  source := by
    rintro named ⟨other, hother⟩
    rcases update_eq_some_iff.mp hother with ⟨-, hnone⟩ | ⟨-, hold⟩
    · cases hnone
    · exact .inl ⟨other, hold⟩
  stays := by
    rintro named ⟨other, hother⟩ - hopen
    refine ⟨other, update_eq_some_iff.mpr (.inr ⟨?_, hother⟩)⟩
    rintro rfl
    rw [hplace] at hother
    cases hother
    exact hopen (closed_singleton.mpr ⟨rfl, hclose⟩)
  named := by
    intro named hnamed hopen
    exact absurd (closed_singleton.mpr ⟨logged_singleton.mp hnamed, hclose⟩) hopen
  released := by
    rintro named hclosed ⟨other, hother⟩
    obtain ⟨rfl, -⟩ := closed_singleton.mp hclosed
    rcases update_eq_some_iff.mp hother with ⟨-, hnone⟩ | ⟨hne, hold⟩
    · cases hnone
    · exact hne (h.once hold hplace)
  once := by
    intro first second named hfirst hsecond
    rcases update_eq_some_iff.mp hfirst with ⟨-, hnone⟩ | ⟨-, hold⟩
    · cases hnone
    rcases update_eq_some_iff.mp hsecond with ⟨-, hnone⟩ | ⟨-, hheld⟩
    · cases hnone
    · exact h.once hold hheld

theorem TicketsBalanced.move (h : TicketsBalanced closes held log)
    (hplace : held place = some ticket) (hother : held other = none) (hopen : ¬ closes entry) :
    Accounted closes held
      (Function.update (Function.update held place none) other (some ticket)) log
      [(ticket, entry)] := by
  have hafter {next : P} {named : T} :
      Function.update (Function.update held place none) other (some ticket) next = some named ↔
        next = other ∧ ticket = named ∨ next ≠ other ∧ next ≠ place ∧ held next = some named := by
    rw [update_eq_some_iff, update_eq_some_iff, Option.some.injEq]
    simp
  refine ⟨?_, ?_, ?_, ?_, ?_⟩
  · rintro named ⟨next, hnext⟩
    rcases hafter.mp hnext with ⟨-, rfl⟩ | ⟨-, -, hold⟩
    · exact .inl ⟨place, hplace⟩
    · exact .inl ⟨next, hold⟩
  · rintro named ⟨next, hnext⟩ - -
    by_cases hat : next = place
    · subst hat
      rw [hplace, Option.some.injEq] at hnext
      exact ⟨other, hafter.mpr (.inl ⟨rfl, hnext⟩)⟩
    · refine ⟨next, hafter.mpr (.inr ⟨?_, hat, hnext⟩)⟩
      rintro rfl
      rw [hother] at hnext
      cases hnext
  · intro named hnamed _
    obtain rfl := logged_singleton.mp hnamed
    exact ⟨other, hafter.mpr (.inl ⟨rfl, rfl⟩)⟩
  · intro named hclosed
    exact absurd (closed_singleton.mp hclosed).2 hopen
  · intro first second named hfirst hsecond
    rcases hafter.mp hfirst with ⟨rfl, rfl⟩ | ⟨-, hfree, hold⟩
    · rcases hafter.mp hsecond with ⟨rfl, -⟩ | ⟨-, hfree, hheld⟩
      · rfl
      · exact absurd (h.once hheld hplace) hfree
    · rcases hafter.mp hsecond with ⟨rfl, rfl⟩ | ⟨-, -, hheld⟩
      · exact absurd (h.once hold hplace) hfree
      · exact h.once hold hheld

end CopyTrade.Foundation
