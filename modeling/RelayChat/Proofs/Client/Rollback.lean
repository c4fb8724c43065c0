import RelayChat.Proofs.Client.Callers

/-!
# Calls that fail

A call that fails leaves every channel in that was in, and none else: what it does to the
roster it takes back.  How the roster shows its channels is another matter.  A channel that
was to be joined goes out again without a trace.  One that was to be left comes back under
the name by which it was asked for, so that the roster shows what it showed before exactly
if that was the spelling it had (`failed_call_restores_iff`).

`Change.rosterAfter` is what the roster has become of by a call, by how far the call is.
While nobody else has a call under way, this is what the roster is (`Callers.Alone`).
-/

namespace RelayChat

/-- What a call has made of a roster, by how far it is. -/
def Change.rosterAfter (ch : Change) (r : Roster) : Roster :=
  match ch.state with
  | .ready | .finished (.ok .unchanged) => r
  | .recorded | .queued _ | .failed _ | .finished (.ok .changed) => ch.kind.record r ch.channel
  | .finished (.error _) => ch.kind.undo (ch.kind.record r ch.channel) ch.channel

/-- Whether a call has changed a roster, by how far it is. -/
def Change.hasRecorded (ch : Change) : Bool :=
  match ch.state with
  | .ready | .finished (.ok .unchanged) => false
  | _ => true

/-- Taken back, a change leaves each channel in that was in, and none else. -/
theorem Change.Kind.has_undo_record {kind : Change.Kind} {r : Roster} {channel : Channel}
    (h : r.contains channel = !kind.joins) (k : List Char) :
    (kind.undo (kind.record r channel) channel).has k = r.has k := by
  rw [has_undo, has_record]
  split
  · next hk => rw [← h, Roster.contains_eq_has, hk]
  · rfl

/-- Taken back, a change leaves what the roster shows, exactly if the channel was not to be left
under another spelling than it had. -/
theorem Change.Kind.snapshot_undo_record_iff {kind : Change.Kind} {r : Roster}
    {channel : Channel} (h : r.contains channel = !kind.joins) :
    (kind.undo (kind.record r channel) channel).snapshot = r.snapshot ↔
      (kind = .part → channel ∈ r.entries) := by
  cases kind with
  | join =>
      have hundone : Kind.join.undo (Kind.join.record r channel) channel = r :=
        Roster.erase_insert h
      rw [hundone]
      exact iff_of_true rfl (fun hkind => by cases hkind)
  | part =>
      exact (r.snapshot_insert_erase_iff channel).trans ⟨fun h _ => h, fun h => h rfl⟩

namespace Callers

variable {s : Callers} {r : Roster} {n : Nat} {kind : Change.Kind} {channel : Channel}

/-- **What is kept** while one call is under way and all others have come to their end: what the
roster has become of is by that call. -/
structure Alone (r : Roster) (n : Nat) (kind : Change.Kind) (channel : Channel) (s : Callers) :
    Prop where
  /-- The other calls have come to their end. -/
  others : ∀ i ch, s.attempts[i]? = some (.ok ch) → i ≠ n → ∃ answer, ch.state = .finished answer
  /-- The call has made of the roster what it is. -/
  own : ∃ ch, s.attempts[n]? = some (.ok ch) ∧ ch.kind = kind ∧ ch.channel = channel ∧
    s.client.roster = ch.rosterAfter r ∧
      (ch.hasRecorded = true → r.contains channel = !kind.joins)

theorem state_of_isIdle (hidle : s.isIdle = true) {i : Nat} {ch : Change}
    (hi : s.attempts[i]? = some (.ok ch)) : ∃ answer, ch.state = .finished answer := by
  have hended := List.all_eq_true.mp hidle _ (List.mem_of_getElem? hi)
  obtain ⟨answer, hanswer⟩ := Option.isSome_iff_exists.mp hended
  obtain ⟨e, herror, -⟩ | ⟨other, outcome, hother, hstate, -⟩ := state_of_answer? hanswer
  · cases herror
  · cases hother
    exact ⟨outcome, hstate⟩

/-- The turn of a caller whose call has come to its end changes nothing. -/
theorem step_turn_of_finished {i : Nat} (h : ∀ ch : Change, s.attempts[i]? = some (.ok ch) →
    ∃ answer, ch.state = .finished answer) : s.step (.turn i) = s := by
  rcases hi : s.attempts[i]? with _ | _ | ch
  · simp only [step, hi]
  · simp only [step, hi]
  · obtain ⟨answer, hstate⟩ := h ch hi
    obtain ⟨hlt, hget⟩ := List.getElem?_eq_some_iff.mp hi
    have hnone : (ch.announcement? i s.client).toList = [] :=
      Change.announcement?_of_not_recorded (by simp [hstate]) i s.client
    simp only [step, hi, Change.step_of_finished hstate, hnone, List.append_nil]
    rw [← hget, List.set_getElem_self]

/-- While all calls have come to their end, the roster stays. -/
theorem roster_run_of_finished
    (h : ∀ (i : Nat) (ch : Change), s.attempts[i]? = some (.ok ch) →
      ∃ answer, ch.state = .finished answer) {events : List Event}
    (hevents : ∀ e ∈ events, e.isCall = false) :
    (s.run events).client.roster = s.client.roster := by
  induction events generalizing s with
  | nil => rfl
  | cons e events ih =>
      obtain ⟨he, hrest⟩ := List.forall_mem_cons.mp hevents
      rw [run_cons]
      cases e with
      | client e =>
          have hlater : ∀ (i : Nat) (ch : Change),
              (s.step (.client e)).attempts[i]? = some (.ok ch) →
                ∃ answer, ch.state = .finished answer := h
          exact (ih hlater hrest).trans (roster_step s.client e)
      | call => cases he
      | turn i =>
          rw [step_turn_of_finished (h i)]
          exact ih h hrest

/-- A move of the call makes of the roster what it is to become. -/
theorem rosterAfter_moves {ch ch' : Change} {c c' : Client} (hmoves : Change.Moves ch c ch' c')
    (hroster : c.roster = ch.rosterAfter r)
    (hrecorded : ch.hasRecorded = true → r.contains ch.channel = !ch.kind.joins) :
    c'.roster = ch'.rosterAfter r ∧
      (ch'.hasRecorded = true → r.contains ch.channel = !ch.kind.joins) := by
  cases hmoves with
  | keep hstate =>
      simp only [Change.rosterAfter, hstate] at hroster
      exact ⟨hroster, fun h => by cases h⟩
  | record hstate hchange =>
      simp only [Change.rosterAfter, hstate] at hroster
      rw [hroster] at hchange ⊢
      exact ⟨rfl, fun _ => hchange⟩
  | post hstate | succeed hstate | fail hstate =>
      simp only [Change.rosterAfter, hstate] at hroster
      exact ⟨hroster, fun _ => hrecorded (by rw [Change.hasRecorded, hstate])⟩
  | wait | rest => exact ⟨hroster, hrecorded⟩
  | undo hstate =>
      simp only [Change.rosterAfter, hstate] at hroster
      rw [hroster]
      exact ⟨rfl, fun _ => hrecorded (by rw [Change.hasRecorded, hstate])⟩

/-- **Every event keeps it**, unless somebody calls. -/
theorem Alone.step (h : Alone r n kind channel s) {e : Event} (he : e.isCall = false) :
    Alone r n kind channel (s.step e) := by
  obtain ⟨own, hown, hkind, hchannel, hroster, hrecorded⟩ := h.own
  cases e with
  | client e =>
      refine ⟨h.others, own, hown, hkind, hchannel, ?_, hrecorded⟩
      exact (roster_step s.client e).trans hroster
  | call => cases he
  | turn i =>
      by_cases hin : i = n
      · subst hin
        obtain ⟨hlt, -⟩ := List.getElem?_eq_some_iff.mp hown
        have hmoves := own.moves_step s.client
        obtain ⟨hkind', hchannel'⟩ := hmoves.about
        subst hkind hchannel
        simp only [Callers.step, hown]
        refine ⟨fun j other hj hne => ?_, _, List.getElem?_set_self hlt, hkind', hchannel',
          rosterAfter_moves hmoves hroster hrecorded⟩
        rcases getElem?_set_eq_some hj with ⟨heq, -⟩ | ⟨-, hj⟩
        · exact absurd heq hne
        · exact h.others j other hj hne
      · rw [step_turn_of_finished fun ch hi => h.others i ch hi hin]
        exact h

theorem Alone.run (h : Alone r n kind channel s) {events : List Event}
    (hevents : ∀ e ∈ events, e.isCall = false) : Alone r n kind channel (s.run events) := by
  induction events generalizing s with
  | nil => exact h
  | cons e events ih =>
      obtain ⟨he, hevents⟩ := List.forall_mem_cons.mp hevents
      exact ih (h.step he) hevents

/-- A call to join or to leave begins so, when all others have come to their end. -/
theorem alone_call (hidle : s.isIdle = true) (kind : Change.Kind) {name : String}
    (hname : Channel.normalize name = .ok channel) :
    Alone s.client.roster s.attempts.length kind channel (s.step (.call kind name)) where
  others i ch hi hne := by
    rcases getElem?_concat_eq_some hi with hi | ⟨heq, -⟩
    · exact state_of_isIdle hidle hi
    · exact absurd heq hne
  own := by
    refine ⟨{ kind, channel }, ?_, rfl, rfl, rfl, fun h => by cases h⟩
    rw [step, List.getElem?_concat_length, Change.attempt, hname]
    rfl

/-- **What a failed call leaves**: of each channel, whether it is in, always; and what the roster
shows, exactly if it is not that a channel was to be left under another spelling than it had. -/
theorem failed_call_restores_iff (s : Callers) (kind : Change.Kind) (name : String)
    (events : List Event) (e : Failure) (hidle : s.isIdle = true)
    (hevents : ∀ e ∈ events, e.isCall = false)
    (hfailed : (s.run (.call kind name :: events)).answer? s.attempts.length = some (.error e)) :
    let after := (s.run (.call kind name :: events)).client
    (∀ k, after.roster.has k = s.client.roster.has k) ∧
      (after.channels = s.client.channels ↔
        ∀ channel, Channel.normalize name = .ok channel → kind = .part →
          channel ∈ s.client.roster.entries) := by
  intro after
  cases hname : Channel.normalize name with
  | error e =>
      have hroster : after.roster = s.client.roster := by
        refine roster_run_of_finished (s := s.step (.call kind name)) ?_ hevents
        intro i ch hi
        rcases getElem?_concat_eq_some hi with hi | ⟨-, hch⟩
        · exact state_of_isIdle hidle hi
        · rw [Change.attempt, hname] at hch
          cases hch
      refine ⟨fun k => by rw [hroster], iff_of_true ?_ ?_⟩
      · rw [Client.channels, hroster, Client.channels]
      · intro channel hchannel
        cases hchannel
  | ok channel =>
      obtain ⟨ch, hch, hkind, hchannel, hroster, hrecorded⟩ :=
        ((alone_call hidle kind hname).run hevents).own
      obtain ⟨e', hstate⟩ : ∃ e, ch.state = .finished (.error e) := by
        rw [answer?, run_cons, hch, Option.bind_some] at hfailed
        obtain ⟨_, hother, -⟩ | ⟨other, outcome, hother, hstate, houtcome⟩ :=
          state_of_answer? hfailed
        · cases hother
        · cases hother
          cases outcome with
          | error e => exact ⟨e, hstate⟩
          | ok m => cases houtcome
      have hchange := hrecorded (by rw [Change.hasRecorded, hstate])
      simp only [Change.rosterAfter, hstate, hkind, hchannel] at hroster
      have hafter : after.roster = kind.undo (kind.record s.client.roster channel) channel :=
        hroster
      refine ⟨fun k => by rw [hafter, Change.Kind.has_undo_record hchange], ?_⟩
      rw [Client.channels, hafter, Client.channels, Change.Kind.snapshot_undo_record_iff hchange]
      simp

/-- Failing to leave a channel that was joined in the same spelling, up to the letter case, while
the connection is closed. -/
theorem failed_part_restores_channels :
    let s := (start (.ofNickname "me") ∅).run
      [.call .join "#x", .turn 0, .turn 0, .client (.connection (.serve (.ok ()))), .turn 0]
    let events : List Event :=
      [.turn 1, .turn 1, .client (.connection .close), .turn 1, .turn 1]
    s.isIdle = true ∧ (∀ e ∈ events, e.isCall = false) ∧
      (s.run (.call .part "X" :: events)).answer? s.attempts.length =
        some (.error (.transport .disposed)) ∧
      (s.run (.call .part "X" :: events)).client.channels = s.client.channels := by
  intro s events
  have hidle : s.isIdle = true := by decide +kernel
  have hevents : ∀ e ∈ events, e.isCall = false := by simp [events, Event.isCall]
  have hfailed : (s.run (.call .part "X" :: events)).answer? s.attempts.length =
      some (.error (.transport .disposed)) := by decide +kernel
  refine ⟨hidle, hevents, hfailed, ?_⟩
  refine (failed_call_restores_iff s .part "X" events _ hidle hevents hfailed).2.mpr ?_
  intro channel hname _
  have hx : Channel.normalize "X" = .ok ⟨.network, "x"⟩ := by decide +kernel
  obtain rfl : ⟨.network, "x"⟩ = channel := Except.ok.inj (hx.symm.trans hname)
  decide +kernel

/-- **A failed call that leaves a trace**: a channel is to be left under another spelling than it
has, and the line cannot be sent.  The channel is in as before, but is shown under the other
spelling. -/
theorem failed_part_respells :
    let s := (start (.ofNickname "me") ∅).run
      [.call .join "#[x]", .turn 0, .turn 0, .client (.connection (.serve (.ok ()))), .turn 0]
    let after := s.run
      [.call .part "#\x7bx\x7d", .turn 1, .turn 1,
        .client (.connection (.serve (.error (.io "broken pipe")))), .turn 1, .turn 1]
    s.isIdle = true ∧
      after.answer? 1 = some (.error (.transport (.io "broken pipe"))) ∧
        after.client.channels ≠ s.client.channels := by
  refine ⟨by decide +kernel, by decide +kernel, ?_⟩
  rw [Client.channels, Client.channels, ne_eq, Roster.snapshot_eq_iff]
  decide +kernel

end Callers
end RelayChat
