import Mathlib.Data.List.Basic
import RelayChat.Handshake.Machine

/-!
# What a handshake says, and in what order

`Handshake.batches` lists the batches of lines that a registration calls for: the
requests for capabilities, the password, the identity, where the first two may be absent.
The steps of a handshake are these, one for each, and the machine says them one after
another.

Which steps are waited for depends on the password alone.  With one, everything before
the identity is waited for; without one, nothing is.

A machine is asked again and again, past its end too.  One call takes the first of the steps
that are left and goes to the stage that the step leads to (`Machine.advance_left`), so that
after any number of calls what is left is a tail of what was there at first (`left_after`).
What calls answer, the stages that are seen and the end are all read off that list, which for
a new machine is the `script` of the registration.
-/

namespace RelayChat.Handshake

variable {r : Registration}

/-- The batches of lines that a registration calls for, in order. -/
def batches (r : Registration) : List (List String) :=
  (if r.capabilities.isEmpty then [] else [r.capabilities.map capabilityLine]) ++
    (r.password.map fun password => [passwordLine password]).toList ++
      [[nickLine r, userLine r]]

/-- The steps of a handshake, from the first to the last. -/
def plan (r : Registration) : List Step :=
  Machine.steps ⟨r, .idle⟩

/-- The steps of a handshake are the batches, one for each. -/
theorem map_lines_plan (r : Registration) : (plan r).map (·.lines) = batches r := by
  cases hcapabilities : r.capabilities.isEmpty <;> cases hpassword : r.password <;>
    simp [plan, batches, Machine.steps, Stage.later, stepTo, hcapabilities, hpassword]

/-- **With a password** every step that another one follows is waited for. -/
theorem awaited_of_password (hpassword : r.password.isSome = true) :
    (plan r).Pairwise fun earlier _ => earlier.awaited = true := by
  obtain ⟨password, hpassword⟩ := Option.isSome_iff_exists.mp hpassword
  cases hcapabilities : r.capabilities.isEmpty <;>
    simp [plan, Machine.steps, Stage.later, stepTo, hcapabilities, hpassword]

/-- **Without a password** no step is waited for. -/
theorem not_awaited_of_no_password (hpassword : r.password = none) :
    ∀ step ∈ plan r, step.awaited = false := by
  cases hcapabilities : r.capabilities.isEmpty <;>
    simp [plan, Machine.steps, Stage.later, stepTo, hcapabilities, hpassword]

/-! ### One call -/

/-- The steps that are left, each with the stage that it leads to. -/
def Machine.left (m : Machine) : List (Stage × Step) :=
  m.stage.later.filterMap fun stage => (stepTo m.config stage).map (stage, ·)

theorem Machine.steps_eq (m : Machine) : m.steps = m.left.map (·.2) := by
  rw [steps, left, List.map_filterMap]
  refine List.filterMap_congr fun stage _ => ?_
  cases stepTo m.config stage <;> rfl

/-- A step is left if its stage is still to come and the configuration asks for it. -/
theorem Machine.mem_left {m : Machine} {stage : Stage} {step : Step} :
    (stage, step) ∈ m.left ↔ stage ∈ m.stage.later ∧ stepTo m.config stage = some step := by
  rw [left, List.mem_filterMap]
  constructor
  · rintro ⟨next, hnext, hstep⟩
    obtain ⟨found, hfound, heq⟩ := Option.map_eq_some_iff.mp hstep
    obtain ⟨rfl, rfl⟩ := Prod.mk.inj heq
    exact ⟨hnext, hfound⟩
  · rintro ⟨hnext, hstep⟩
    exact ⟨stage, hnext, by rw [hstep]; rfl⟩

/-- **One call** says the first of the steps that are left and goes to its stage, or says nothing
and stays where it is. -/
theorem Machine.advance_left (m : Machine) :
    (∃ stage step, m.left = (stage, step) :: left { m with stage } ∧
        m.advance = (some step, { m with stage })) ∨
      m.left = [] ∧ m.advance = (none, m) := by
  obtain ⟨r, stage⟩ := m
  have hidentity : stepTo r .identitySent = some ⟨[nickLine r, userLine r], false⟩ := rfl
  cases stage with
  | idle =>
      cases hcapabilities : stepTo r .capabilitiesRequested <;>
        cases hpassword : stepTo r .passwordSent <;>
          simp [advance, left, Stage.later, hcapabilities, hpassword, hidentity]
  | capabilitiesRequested =>
      cases hpassword : stepTo r .passwordSent <;>
        simp [advance, left, Stage.later, hpassword, hidentity]
  | passwordSent => simp [advance, left, Stage.later, hidentity]
  | identitySent => exact .inr ⟨rfl, rfl⟩

/-- **The machine says the steps that are left one by one**, and nothing when there are none. -/
theorem Machine.advance_cases (m : Machine) :
    (∃ step rest, m.advance = (some step, rest) ∧ m.steps = step :: rest.steps) ∨
      m.advance = (none, m) ∧ m.steps = [] := by
  obtain ⟨stage, step, hleft, hadvance⟩ | ⟨hleft, hadvance⟩ := m.advance_left
  · exact .inl ⟨step, { m with stage }, hadvance, by rw [steps_eq, hleft, steps_eq]; rfl⟩
  · exact .inr ⟨hadvance, by rw [steps_eq, hleft]; rfl⟩

theorem Machine.steps_of_advance_some {m rest : Machine} {step : Step}
    (h : m.advance = (some step, rest)) : m.steps = step :: rest.steps := by
  obtain ⟨step', rest', hadvance, hsteps⟩ | ⟨hadvance, -⟩ := m.advance_cases
  · rw [h] at hadvance
    cases hadvance
    exact hsteps
  · rw [h] at hadvance
    cases hadvance

theorem Machine.steps_of_advance_none {m rest : Machine} (h : m.advance = (none, rest)) :
    m.steps = [] := by
  obtain ⟨step, rest', hadvance, -⟩ | ⟨-, hsteps⟩ := m.advance_cases
  · rw [h] at hadvance
    cases hadvance
  · exact hsteps

/-! ### Any number of calls -/

namespace Machine

/-- The machine after a number of calls. -/
def after (m : Machine) : Nat → Machine
  | 0 => m
  | n + 1 => (m.after n).advance.2

/-- What a call answers that comes after a number of others. -/
def answer (m : Machine) (n : Nat) : Option Step :=
  (m.after n).advance.1

/-- After so many calls so many steps are gone. -/
theorem left_after (m : Machine) (n : Nat) : (m.after n).left = m.left.drop n := by
  induction n with
  | zero => rfl
  | succ n ih =>
      rw [after, ← List.tail_drop, ← ih]
      obtain ⟨stage, step, hleft, hadvance⟩ | ⟨hleft, hadvance⟩ := (m.after n).advance_left
      · rw [hadvance, hleft, List.tail_cons]
      · rw [hadvance, hleft, List.tail_nil]

/-- **Each call answers with the step whose turn it is.** -/
theorem answer_eq (m : Machine) (n : Nat) : m.answer n = m.left[n]?.map (·.2) := by
  rw [answer, ← List.head?_drop, ← left_after]
  obtain ⟨stage, step, hleft, hadvance⟩ | ⟨hleft, hadvance⟩ := (m.after n).advance_left
  · rw [hadvance, hleft, List.head?_cons, Option.map_some]
  · rw [hadvance, hleft, List.head?_nil, Option.map_none]

/-- **The stage is that of the last step**, of those that calls have answered with. -/
theorem stage_after (m : Machine) (n : Nat) :
    (m.after n).stage = (m.left.take n).getLast?.elim m.stage (·.1) := by
  induction n with
  | zero => rfl
  | succ n ih =>
      rw [after, List.take_add_one, List.getLast?_append, ← List.head?_drop, ← left_after]
      obtain ⟨stage, step, hleft, hadvance⟩ | ⟨hleft, hadvance⟩ := (m.after n).advance_left
      · rw [hadvance, hleft]
        rfl
      · rw [hadvance, hleft, ih]
        rfl

end Machine

/-- How far on a stage is. -/
def Stage.rank : Stage → Nat
  | .idle => 0
  | .capabilitiesRequested => 1
  | .passwordSent => 2
  | .identitySent => 3

/-- Stages only go forward. -/
theorem Stage.rank_lt {stage next : Stage} (h : next ∈ stage.later) : stage.rank < next.rank := by
  revert h
  cases stage <;> cases next <;> decide

/-- **A call that says something moves on**, and one that says nothing stays. -/
theorem Machine.rank_advance (m : Machine) :
    if m.advance.1.isSome then m.stage.rank < m.advance.2.stage.rank else m.advance.2 = m := by
  obtain ⟨stage, step, hleft, hadvance⟩ | ⟨-, hadvance⟩ := m.advance_left
  · rw [hadvance]
    have hmem : (stage, step) ∈ m.left := hleft ▸ List.mem_cons_self
    exact Stage.rank_lt (mem_left.mp hmem).1
  · rw [hadvance]
    rfl

/-! ### The whole handshake -/

section Lines

open Message

/-- The line that asks for a capability, character by character. -/
theorem capabilityLine_eq (c : Capability) : capabilityLine c = "CAP REQ :" ++ c.text := by
  refine String.toList_inj.mp ?_
  rw [capabilityLine, text, String.toList_ofList, String.toList_append]
  simp [ofVerb, withParam, withTrailing, chars, tagsChars, sourceChars, trailingChars]

/-- The line of a password, character by character. -/
theorem passwordLine_eq (password : String) : passwordLine password = "PASS " ++ password := by
  refine String.toList_inj.mp ?_
  rw [passwordLine, text, String.toList_ofList, String.toList_append]
  simp [ofVerb, withParam, chars, tagsChars, sourceChars, trailingChars]

/-- The line of the nickname, character by character. -/
theorem nickLine_eq (r : Registration) : nickLine r = "NICK " ++ r.nickname := by
  refine String.toList_inj.mp ?_
  rw [nickLine, text, String.toList_ofList, String.toList_append]
  simp [ofVerb, withParam, chars, tagsChars, sourceChars, trailingChars]

/-- The line of the user, with the modes that are asked for. -/
theorem userLine_eq (r : Registration) :
    userLine r = "USER " ++ r.userName ++ " " ++ toString r.modeBits ++ " * :" ++ r.realName := by
  refine String.toList_inj.mp ?_
  rw [userLine, text, String.toList_ofList]
  simp [ofVerb, withParam, withTrailing, chars, tagsChars, sourceChars, trailingChars]

end Lines

/-- The step that gives the identity. -/
def identity (r : Registration) : Step where
  lines := ["NICK " ++ r.nickname,
    "USER " ++ r.userName ++ " " ++ toString r.modeBits ++ " * :" ++ r.realName]
  awaited := false

/-- The steps that come before the identity, each with the stage that it leads to: a request for
each capability if there are any, and the password if there is one. -/
def preliminaries (r : Registration) : List (Stage × Step) :=
  (if r.capabilities = [] then []
    else [(.capabilitiesRequested,
      ⟨r.capabilities.map fun c => "CAP REQ :" ++ c.text, r.password.isSome⟩)]) ++
  (match r.password with
    | none => []
    | some password => [(.passwordSent, ⟨["PASS " ++ password], true⟩)])

/-- **What a handshake says**, step by step, each with the stage that it leads to. -/
def script (r : Registration) : List (Stage × Step) :=
  preliminaries r ++ [(.identitySent, identity r)]

/-- At the beginning the whole script is left. -/
theorem left_idle (r : Registration) : Machine.left ⟨r, .idle⟩ = script r := by
  have hlines : r.capabilities.map capabilityLine =
      r.capabilities.map fun c => "CAP REQ :" ++ c.text :=
    List.map_congr_left fun c _ => capabilityLine_eq c
  cases hcapabilities : r.capabilities <;> cases hpassword : r.password <;>
    simp_all [Machine.left, Stage.later, stepTo, script, preliminaries, identity, passwordLine_eq,
      nickLine_eq, userLine_eq]

/-- No step before the identity leads to the last stage, or is the identity. -/
theorem ne_of_mem_preliminaries {stage : Stage} {step : Step}
    (h : (stage, step) ∈ preliminaries r) : stage ≠ .identitySent ∧ step ≠ identity r := by
  rcases List.mem_append.mp h with h | h
  · split at h
    · cases h
    · next hsome =>
      obtain ⟨rfl, rfl⟩ := Prod.mk.inj (List.mem_singleton.mp h)
      refine ⟨by decide, fun heq => ?_⟩
      -- The first line asks for a capability and does not give a nickname.
      obtain ⟨c, rest, hcapabilities⟩ := List.exists_cons_of_ne_nil hsome
      have hlines := congrArg Step.lines heq
      rw [hcapabilities, List.map_cons, identity] at hlines
      have hchars := congrArg String.toList (List.cons.inj hlines).1
      simp at hchars
  · split at h
    · cases h
    · obtain ⟨rfl, rfl⟩ := Prod.mk.inj (List.mem_singleton.mp h)
      exact ⟨by decide, fun heq => absurd (congrArg Step.awaited heq) (by simp [identity])⟩

/-- The machine has come to its end when the step after the preliminaries has been said. -/
theorem isComplete_after_iff (r : Registration) (n : Nat) :
    (Machine.after ⟨r, .idle⟩ n).isComplete = true ↔ (preliminaries r).length < n := by
  rw [Machine.isComplete, beq_iff_eq, Machine.stage_after, left_idle]
  constructor
  · intro h
    by_contra hle
    rw [script, List.take_append_of_le_length (by omega)] at h
    cases hlast : ((preliminaries r).take n).getLast? with
    | none =>
        rw [hlast] at h
        cases h
    | some last =>
        rw [hlast] at h
        have hmem := List.mem_of_mem_take (List.mem_of_getLast? hlast)
        exact (ne_of_mem_preliminaries hmem).1 h
  · intro h
    rw [List.take_of_length_le (by simp [script]; omega), script, List.getLast?_concat]
    rfl

/-- The identity is answered once all that comes before it has been. -/
theorem identity_answered_iff (r : Registration) (n : Nat) :
    (∃ i < n, Machine.answer ⟨r, .idle⟩ i = some (identity r)) ↔ (preliminaries r).length < n := by
  constructor
  · rintro ⟨i, hi, hanswer⟩
    by_contra hle
    rw [Machine.answer_eq, left_idle, script, List.getElem?_append_left (by omega)] at hanswer
    obtain ⟨⟨stage, step⟩, hstep, rfl⟩ := Option.map_eq_some_iff.mp hanswer
    exact (ne_of_mem_preliminaries (List.mem_of_getElem? hstep)).2 rfl
  · intro h
    refine ⟨_, h, ?_⟩
    rw [Machine.answer_eq, left_idle, script, List.getElem?_concat_length]
    rfl

/-- How a machine goes through a handshake, call by call. -/
structure Recites (r : Registration) : Prop where
  /-- The calls answer with the steps of the script, one each and in order, and then with
  nothing. -/
  answers : ∀ n, Machine.answer ⟨r, .idle⟩ n = (script r)[n]?.map (·.2)
  /-- After some calls the stage is that of the last step they answered with. -/
  stage : ∀ n, (Machine.after ⟨r, .idle⟩ n).stage =
    ((script r).take n).getLast?.elim .idle (·.1)
  /-- A call that answers with a step moves the stage forward, and one with nothing leaves it. -/
  forward : ∀ n,
    let now := Machine.after ⟨r, .idle⟩ n
    let next := Machine.after ⟨r, .idle⟩ (n + 1)
    if (Machine.answer ⟨r, .idle⟩ n).isSome then now.stage.rank < next.stage.rank else next = now
  /-- The stage of capabilities is never seen without any. -/
  capabilities : ∀ n, (Machine.after ⟨r, .idle⟩ n).stage = .capabilitiesRequested →
    r.capabilities ≠ []
  /-- The stage of the password is never seen without one. -/
  password : ∀ n, (Machine.after ⟨r, .idle⟩ n).stage = .passwordSent → r.password.isSome = true
  /-- The machine has come to its end exactly if a call has answered with the identity. -/
  complete : ∀ n, (Machine.after ⟨r, .idle⟩ n).isComplete = true ↔
    ∃ i < n, Machine.answer ⟨r, .idle⟩ i = some (identity r)

/-- A stage that is seen, other than the first, is one of the script. -/
theorem mem_script_of_stage {n : Nat} {stage : Stage} (hstage : stage ≠ .idle)
    (h : (Machine.after ⟨r, .idle⟩ n).stage = stage) : ∃ step, (stage, step) ∈ script r := by
  rw [Machine.stage_after, left_idle] at h
  cases hlast : ((script r).take n).getLast? with
  | none =>
      rw [hlast] at h
      exact absurd h.symm hstage
  | some last =>
      obtain ⟨reached, step⟩ := last
      rw [hlast] at h
      obtain rfl : reached = stage := h
      exact ⟨step, List.mem_of_mem_take (List.mem_of_getLast? hlast)⟩

/-- **A handshake is recited**: every step once, in order, and nothing after them. -/
theorem handshake_recited (r : Registration) : Recites r where
  answers n := by rw [Machine.answer_eq, left_idle]
  stage n := by rw [Machine.stage_after, left_idle]
  forward n := Machine.rank_advance _
  capabilities n h := by
    obtain ⟨step, hmem⟩ := mem_script_of_stage (by decide) h
    rw [← left_idle] at hmem
    have hstep := (Machine.mem_left.mp hmem).2
    intro hnone
    simp [stepTo, hnone] at hstep
  password n h := by
    obtain ⟨step, hmem⟩ := mem_script_of_stage (by decide) h
    rw [← left_idle] at hmem
    have hstep := (Machine.mem_left.mp hmem).2
    obtain ⟨password, hpassword, -⟩ := Option.map_eq_some_iff.mp hstep
    exact Option.isSome_iff_exists.mpr ⟨password, hpassword⟩
  complete n := by rw [isComplete_after_iff, identity_answered_iff]

end RelayChat.Handshake
