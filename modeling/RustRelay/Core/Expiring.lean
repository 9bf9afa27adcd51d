import Mathlib.Logic.Function.Basic

/-!
# A store whose values expire

Values are set with a time to live, and deleted. A value is read until its time is over; then it is
as if it had never been set.

* `execute` — a command at a time; `entries_execute` — what it does to each key.
* `get` — what is read at a time; `get_eq_some` — the value that is there, before its time is over.

Keys, values and times are arbitrary.
-/

/-- Values with the times at which they expire. -/
structure Expiring (κ ν τ : Type*) where
  entries : κ → Option (ν × τ)

namespace Expiring

variable {κ ν τ : Type*}

inductive Command (κ ν τ : Type*)
  /-- The time to live counts from the time of the command. -/
  | set (key : κ) (value : ν) (ttl : τ)
  | del (key : κ)

def Command.key : Command κ ν τ → κ
  | .set k _ _ | .del k => k

/-- What the command leaves at its key. -/
def Command.entry [Add τ] (now : τ) : Command κ ν τ → Option (ν × τ)
  | .set _ v ttl => some (v, now + ttl)
  | .del _ => none

def empty : Expiring κ ν τ := ⟨fun _ => none⟩

section
variable [DecidableEq κ] [Add τ]

def execute (s : Expiring κ ν τ) (now : τ) (c : Command κ ν τ) : Expiring κ ν τ :=
  ⟨Function.update s.entries c.key (c.entry now)⟩

theorem entries_execute (s : Expiring κ ν τ) (now : τ) (c : Command κ ν τ) (k : κ) :
    (s.execute now c).entries k = if k = c.key then c.entry now else s.entries k := by
  by_cases h : k = c.key
  · rw [if_pos h, h]
    exact Function.update_self ..
  · rw [if_neg h]
    exact Function.update_of_ne h ..

/-- A command, or none. -/
def executeOption (s : Expiring κ ν τ) (now : τ) (c : Option (Command κ ν τ)) : Expiring κ ν τ :=
  c.elim s (s.execute now)

theorem entries_executeOption_of_ne {s : Expiring κ ν τ} {now : τ} {c : Option (Command κ ν τ)}
    {k : κ} (h : ∀ d ∈ c, d.key ≠ k) : (s.executeOption now c).entries k = s.entries k := by
  cases c with
  | none => rfl
  | some d => exact (s.entries_execute now d k).trans (if_neg (Ne.symm (h d rfl)))

end

section
variable [LT τ] [DecidableLT τ]

/-- What is read at a time. -/
def get (s : Expiring κ ν τ) (now : τ) (k : κ) : Option ν :=
  (s.entries k).bind fun e => if now < e.2 then some e.1 else none

theorem get_eq_some {s : Expiring κ ν τ} {now : τ} {k : κ} {v : ν} :
    s.get now k = some v ↔ ∃ deadline, s.entries k = some (v, deadline) ∧ now < deadline := by
  rw [get, Option.bind_eq_some_iff]
  constructor
  · rintro ⟨⟨v', deadline⟩, he, hget⟩
    simp only [Option.ite_none_right_eq_some, Option.some.injEq] at hget
    obtain ⟨hlt, rfl⟩ := hget
    exact ⟨deadline, he, hlt⟩
  · rintro ⟨deadline, he, hlt⟩
    exact ⟨_, he, if_pos hlt⟩

end

end Expiring
