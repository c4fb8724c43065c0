import RelayChat.Proofs.Client.Callers

/-!
# Membership and the lines that were accepted

The roster is to say of each channel what the last line for it says that the transport
accepted.  What stands in the way is a change that is *pending*: it is in the roster, but
its line has not been put into the queue, or is one that will not be sent, so that the
change will be taken back.  As an undo goes by the channel and not by what was there
before, it is right only if nobody has changed the channel in between.

`Callers.Balanced` is what is kept for a channel as long as no call makes its change over
one that is pending: at most one is pending; without it the roster and the accepted lines
agree, and with it they differ by just this change.  Hence they agree once all calls have
come to their end (`roster_agrees_unless_disturbed`).  Two calls that both fail are enough
to show that they need not agree otherwise (`undone_twice`).

Calls that wait for one another never make a change over a pending one, so for them the
roster follows the accepted lines (`roster_follows_wire`).
-/

namespace RelayChat

/-! ### Pending changes -/

namespace Change

variable {ch ch' : Change} {c c' : Client} {f : Connection} {k : List Char}

/-- Whether the change of a call is in the roster and is going to be taken back unless its line
is still put into the queue, where the requests end as they do in the connection. -/
def isPending (f : Connection) (ch : Change) : Bool :=
  match ch.state with
  | .recorded | .failed _ => true
  | .queued ticket => f.outcome? ticket != some (.ok ())
  | _ => false

/-- Whether the next move of a call makes its change in the roster. -/
def isDue (ch : Change) (c : Client) : Bool :=
  match ch.state with
  | .ready => c.roster.contains ch.channel != ch.kind.joins
  | _ => false

/-- Whose change is pending has not come to its end. -/
theorem answer?_of_isPending (h : ch.isPending f = true) : answer? (.ok ch) = none := by
  cases hstate : ch.state with
  | ready | recorded | queued | failed => rw [answer?, hstate]
  | finished answer =>
      rw [isPending, hstate] at h
      cases h

/-- What has not come to its end after a move had not before. -/
theorem Moves.answer?_eq_none (hmoves : Moves ch c ch' c') (h : answer? (.ok ch') = none) :
    answer? (.ok ch) = none := by
  cases hmoves with
  | wait | rest => exact h
  | keep hstate | record hstate | post hstate | succeed hstate | fail hstate | undo hstate =>
      rw [answer?, hstate]

end Change

/-! ### What the accepted lines say -/

namespace Callers

variable {s : Callers} {f : Connection} {first : Bool} {k : List Char}
  {as : List Announcement} {a : Announcement}

/-- What the last of some announcements says, where there was no word of it at `first`. -/
def standing (first : Bool) (as : List Announcement) : Bool :=
  (as.getLast?.map (·.kind.joins)).getD first

/-- Whether each announcement says the opposite of the one before it. -/
def alternates (first : Bool) : List Announcement → Bool
  | [] => true
  | a :: rest => (a.kind.joins != first) && alternates a.kind.joins rest

@[simp] theorem standing_nil (first : Bool) : standing first [] = first := rfl

@[simp] theorem standing_concat (first : Bool) (as : List Announcement) (a : Announcement) :
    standing first (as ++ [a]) = a.kind.joins := by
  rw [standing, List.getLast?_concat]
  rfl

theorem standing_cons (first : Bool) (a : Announcement) (as : List Announcement) :
    standing first (a :: as) = standing a.kind.joins as := by
  cases as with
  | nil => rfl
  | cons b as => rw [standing, standing, List.getLast?_cons_cons, List.getLast?_cons]; rfl

theorem alternates_concat (first : Bool) (as : List Announcement) (a : Announcement) :
    alternates first (as ++ [a]) =
      (alternates first as && (a.kind.joins != standing first as)) := by
  induction as generalizing first with
  | nil => simp [alternates]
  | cons b as ih =>
      rw [List.cons_append, alternates, ih, standing_cons, alternates, Bool.and_assoc]

/-- The announcements of a channel that are sent in the end, by its fold. -/
def sentFor (f : Connection) (k : List Char) (s : Callers) : List Announcement :=
  (s.announced.filter (·.isSent f)).filter (·.channel.fold = k)

/-- The accepted announcements of a channel, by its fold. -/
def acceptedFor (s : Callers) (k : List Char) : List Announcement :=
  s.accepted.filter (·.channel.fold = k)

/-! ### Changes made over pending ones -/

/-- Whether no call that is about a channel is pending. -/
def isClear (f : Connection) (k : List Char) (s : Callers) : Bool :=
  s.attempts.all fun
    | .ok ch => ch.channel.fold ≠ k || !ch.isPending f
    | .error _ => true

/-- Whether an event makes no change of a channel over one that is pending. -/
def mayHappen (f : Connection) (k : List Char) (s : Callers) : Event → Bool
  | .turn i =>
    match s.attempts[i]? with
    | some (.ok ch) => ch.channel.fold ≠ k || !ch.isDue s.client || s.isClear f k
    | _ => true
  | _ => true

/-- Whether along a history no change of a channel is made over one that is pending. -/
def undisturbed (f : Connection) (k : List Char) (s : Callers) : List Event → Bool
  | [] => true
  | e :: rest => s.mayHappen f k e && (s.step e).undisturbed f k rest

/-- A call that is about a channel and is pending. -/
def PendingAt (f : Connection) (k : List Char) (s : Callers) (i : Nat) (ch : Change) : Prop :=
  s.attempts[i]? = some (.ok ch) ∧ ch.channel.fold = k ∧ ch.isPending f = true

theorem isClear_iff : s.isClear f k = true ↔ ∀ i ch, ¬ PendingAt f k s i ch := by
  rw [isClear, List.all_eq_true]
  constructor
  · rintro h i ch ⟨hi, hk, hpending⟩
    have hch := h _ (List.mem_of_getElem? hi)
    simp [hk, hpending] at hch
  · intro h attempt hattempt
    obtain ⟨i, hi⟩ := List.getElem?_of_mem hattempt
    cases attempt with
    | error e => rfl
    | ok ch =>
        have hnot := h i ch
        rw [PendingAt, hi] at hnot
        simpa [or_iff_not_imp_left] using hnot

/-- What is pending after a move of one call. -/
theorem pendingAt_set {i j : Nat} {ch ch' other : Change} {client : Client}
    {announced : List Announcement} (hi : s.attempts[i]? = some (.ok ch)) :
    PendingAt f k { client, attempts := s.attempts.set i (.ok ch'), announced } j other ↔
      (j = i ∧ other = ch' ∧ ch'.channel.fold = k ∧ ch'.isPending f = true) ∨
        (j ≠ i ∧ PendingAt f k s j other) := by
  obtain ⟨hlt, -⟩ := List.getElem?_eq_some_iff.mp hi
  rw [PendingAt, PendingAt]
  by_cases hji : j = i
  · subst hji
    rw [List.getElem?_set_self hlt]
    constructor
    · rintro ⟨hother, hk, hpending⟩
      cases hother
      exact .inl ⟨rfl, rfl, hk, hpending⟩
    · rintro (⟨-, rfl, hk, hpending⟩ | ⟨hne, -⟩)
      · exact ⟨rfl, hk, hpending⟩
      · exact absurd rfl hne
  · rw [List.getElem?_set_ne (Ne.symm hji)]
    simp [hji]

/-! ### What is kept -/

/-- **What is kept** of a channel: at most one call has its change pending, and but for this
change the roster says what the lines say that are sent. -/
inductive Balanced (f : Connection) (first : Bool) (k : List Char) (s : Callers) : Prop
  /-- No change is pending. -/
  | settled (hclear : ∀ i ch, ¬ PendingAt f k s i ch)
      (hhas : s.client.roster.has k = standing first (s.sentFor f k))
  /-- One change is pending, and makes the difference. -/
  | pending {i : Nat} {ch : Change} (hi : PendingAt f k s i ch)
      (honly : ∀ j other, PendingAt f k s j other → j = i)
      (hhas : s.client.roster.has k = ch.kind.joins)
      (hstanding : standing first (s.sentFor f k) = !ch.kind.joins)

/-- Without a pending change the roster says what the lines say. -/
theorem Balanced.has_eq (h : Balanced f first k s) (hclear : ∀ i ch, ¬ PendingAt f k s i ch) :
    s.client.roster.has k = standing first (s.sentFor f k) := by
  cases h with
  | settled _ hhas => exact hhas
  | pending hi => exact absurd hi (hclear _ _)

section Turn

variable {i : Nat} {ch ch' : Change} {client : Client} {announced : List Announcement}

/-- A move after which the call is pending as it was before keeps it all, if the roster and the
lines say the same as before. -/
theorem Balanced.stay (h : Balanced f first k s) (hi : s.attempts[i]? = some (.ok ch))
    (habout : ch'.kind = ch.kind ∧ ch'.channel = ch.channel)
    (hpending : ch.channel.fold = k → ch'.isPending f = ch.isPending f)
    (hhas : client.roster.has k = s.client.roster.has k)
    (hsent : sentFor f k { client, attempts := s.attempts.set i (.ok ch'), announced } =
      s.sentFor f k) :
    Balanced f first k { client, attempts := s.attempts.set i (.ok ch'), announced } := by
  obtain ⟨hkind, hchannel⟩ := habout
  -- What is pending is the same, up to how far the call is.
  have hback : ∀ {j other},
      PendingAt f k { client, attempts := s.attempts.set i (.ok ch'), announced } j other →
        ∃ before, PendingAt f k s j before := by
    intro j other hj
    rcases (pendingAt_set hi).mp hj with ⟨rfl, rfl, hk, hp⟩ | ⟨-, hj⟩
    · rw [hchannel] at hk
      exact ⟨ch, hi, hk, by rw [← hpending hk, hp]⟩
    · exact ⟨other, hj⟩
  cases h with
  | settled hclear hold =>
      refine .settled (fun j other hj => ?_) (by rw [hhas, hsent, hold])
      obtain ⟨before, hj⟩ := hback hj
      exact hclear j before hj
  | @pending j other hj honly hold hstanding =>
      have hone : ∀ l later,
          PendingAt f k { client, attempts := s.attempts.set i (.ok ch'), announced } l later →
            l = j := by
        intro l later hl
        obtain ⟨before, hl⟩ := hback hl
        exact honly l before hl
      by_cases hji : j = i
      · subst hji
        obtain ⟨hother, hk, hp⟩ := hj
        rw [hi] at hother
        cases hother
        refine .pending ((pendingAt_set hi).mpr (.inl ⟨rfl, rfl, ?_, ?_⟩)) hone ?_ ?_
        · rw [hchannel, hk]
        · rw [hpending hk, hp]
        · rw [hhas, hold, hkind]
        · rw [hsent, hstanding, hkind]
      · exact .pending ((pendingAt_set hi).mpr (.inr ⟨hji, hj⟩)) hone (by rw [hhas, hold])
          (by rw [hsent, hstanding])

/-- Making a change in the roster, while none is pending. -/
theorem Balanced.record (h : Balanced f first k s) (hi : s.attempts[i]? = some (.ok ch))
    (hk : ch.channel.fold = k)
    (hroster : s.client.roster.contains ch.channel = !ch.kind.joins)
    (hclear : ∀ j other, ¬ PendingAt f k s j other) :
    Balanced f first k
      { client := { s.client with roster := ch.kind.record s.client.roster ch.channel }
        attempts := s.attempts.set i (.ok { ch with state := .recorded })
        announced := s.announced } := by
  have hold := h.has_eq hclear
  rw [Roster.contains_eq_has, hk] at hroster
  refine .pending ((pendingAt_set hi).mpr (.inl ⟨rfl, rfl, hk, rfl⟩)) ?_ ?_ ?_
  · intro j other hj
    rcases (pendingAt_set hi).mp hj with ⟨rfl, -⟩ | ⟨-, hj⟩
    · rfl
    · exact absurd hj (hclear j other)
  · rw [Change.Kind.has_record, if_pos hk]
  · exact hold.symm.trans hroster

/-- A pending change comes to rest: the roster or the lines are made to agree. -/
theorem Balanced.resolve (h : Balanced f first k s) (hi : PendingAt f k s i ch)
    (hdone : ch'.isPending f = false)
    (hagree : s.client.roster.has k = ch.kind.joins →
      standing first (s.sentFor f k) = (!ch.kind.joins) →
        client.roster.has k = standing first
          (sentFor f k { client, attempts := s.attempts.set i (.ok ch'), announced })) :
    Balanced f first k { client, attempts := s.attempts.set i (.ok ch'), announced } := by
  cases h with
  | settled hclear => exact absurd hi (hclear i ch)
  | @pending j other hj honly hhas hstanding =>
      obtain rfl := honly i ch hi
      obtain rfl : other = ch := by
        have heq := hj.1.symm.trans hi.1
        cases heq
        rfl
      refine .settled ?_ (hagree hhas hstanding)
      intro l later hl
      rcases (pendingAt_set hi.1).mp hl with ⟨-, -, -, hp⟩ | ⟨hne, hl⟩
      · rw [hdone] at hp
        cases hp
      · exact hne (honly l later hl)

end Turn

theorem Balanced.standing_of_pending (h : Balanced f first k s) {i : Nat} {ch : Change}
    (hi : PendingAt f k s i ch) : standing first (s.sentFor f k) = !ch.kind.joins := by
  cases h with
  | settled hclear => exact absurd hi (hclear i ch)
  | @pending j other hj honly _ hstanding =>
      obtain rfl := honly i ch hi
      have heq := hj.1.symm.trans hi.1
      cases heq
      exact hstanding

/-- What a further announcement adds to the lines that are sent. -/
theorem sentFor_append (client : Client) (attempts : List (Except ValueError Change))
    (own : List Announcement) :
    sentFor f k { client, attempts := attempts, announced := s.announced ++ own } =
      s.sentFor f k ++ (own.filter (·.isSent f)).filter (·.channel.fold = k) := by
  rw [sentFor, List.filter_append, List.filter_append]
  rfl

/-- A move adds nothing to the lines of other channels. -/
theorem sentFor_other (client : Client) (attempts : List (Except ValueError Change)) {ch : Change}
    (hk : ch.channel.fold ≠ k) (i : Nat) :
    sentFor f k
      { client
        attempts := attempts
        announced := s.announced ++ (ch.announcement? i s.client).toList } = s.sentFor f k := by
  have hnone : ∀ a ∈ (ch.announcement? i s.client).toList, a.channel.fold ≠ k := by
    intro a ha
    by_cases hstate : ch.state = .recorded
    · rw [Change.announcement?_of_recorded hstate, List.mem_singleton] at ha
      rw [ha]
      exact hk
    · rw [Change.announcement?_of_not_recorded hstate] at ha
      cases ha
  rw [sentFor_append, List.filter_filter, List.filter_eq_nil_iff.mpr, List.append_nil]
  intro a ha
  simp [hnone a ha]

/-- A move that puts nothing into the queue adds nothing to the lines. -/
theorem sentFor_quiet (client : Client) (attempts : List (Except ValueError Change)) {ch : Change}
    (hstate : ch.state ≠ .recorded) (i : Nat) :
    sentFor f k
      { client
        attempts := attempts
        announced := s.announced ++ (ch.announcement? i s.client).toList } = s.sentFor f k := by
  rw [Change.announcement?_of_not_recorded hstate, List.append_nil]
  rfl

/-- Putting the line into the queue adds it to the lines, if it is going to be sent. -/
theorem sentFor_post (client : Client) (attempts : List (Except ValueError Change)) {ch : Change}
    (hstate : ch.state = .recorded) (hk : ch.channel.fold = k) (i : Nat) :
    let a : Announcement := ⟨i, ch.kind, ch.channel, s.client.connection.issued⟩
    sentFor f k
      { client
        attempts := attempts
        announced := s.announced ++ (ch.announcement? i s.client).toList } =
          if a.isSent f then s.sentFor f k ++ [a] else s.sentFor f k := by
  intro a
  rw [Change.announcement?_of_recorded hstate, sentFor_append]
  cases hsent : a.isSent f with
  | true => simp [a, hsent, hk]
  | false => simp [a, hsent]

/-- Whether a call is pending once its line is in the queue: unless the line is going to be
sent. -/
theorem isPending_queued (ch : Change) (i : Nat) (ticket : Ticket) :
    { ch with state := .queued ticket }.isPending f =
      !Announcement.isSent f ⟨i, ch.kind, ch.channel, ticket⟩ := rfl

/-- **A move of a call keeps it all**, unless it makes its change over a pending one. -/
theorem Balanced.moves (h : Balanced f first k s) {i : Nat} {ch ch' : Change} {client : Client}
    (hi : s.attempts[i]? = some (.ok ch)) (hmoves : Change.Moves ch s.client ch' client)
    (houtlives : Registrar.Outlives s.client.connection f)
    (hclear : ch.channel.fold = k → ch.isDue s.client = true →
      ∀ j other, ¬ PendingAt f k s j other) :
    Balanced f first k
      { client, attempts := s.attempts.set i (.ok ch')
        announced := s.announced ++ (ch.announcement? i s.client).toList } := by
  by_cases hk : ch.channel.fold = k
  · cases hmoves with
    | keep hstate =>
        exact h.stay hi ⟨rfl, rfl⟩ (fun _ => by simp [Change.isPending, hstate]) rfl
          (sentFor_quiet _ _ (by simp [hstate]) i)
    | record hstate hroster =>
        have hdue : ch.isDue s.client = true := by simp [Change.isDue, hstate, hroster]
        rw [Change.announcement?_of_not_recorded (by simp [hstate]), List.append_nil]
        exact h.record hi hk hroster (hclear hk hdue)
    | post hstate =>
        have hpending : ch.isPending f = true := by rw [Change.isPending, hstate]
        have hpost := sentFor_post (f := f) (s := s)
          { s.client with connection := s.client.connection.step (.send [ch.line]) }
          (s.attempts.set i (.ok { ch with state := .queued s.client.connection.issued }))
          hstate hk i
        have hqueued := isPending_queued (f := f) ch i s.client.connection.issued
        cases hsent : Announcement.isSent f ⟨i, ch.kind, ch.channel, s.client.connection.issued⟩
          with
        | true =>
            rw [hsent] at hqueued
            refine h.resolve ⟨hi, hk, hpending⟩ hqueued fun hhas _ => ?_
            rw [hpost, if_pos hsent, standing_concat]
            exact hhas
        | false =>
            rw [hsent] at hqueued
            refine h.stay hi ⟨rfl, rfl⟩ (fun _ => by rw [hqueued, hpending]; rfl) rfl ?_
            rw [hpost, if_neg (by simp [hsent])]
    | wait hstate | rest hstate =>
        exact h.stay hi ⟨rfl, rfl⟩ (fun _ => rfl) rfl (sentFor_quiet _ _ (by simp [hstate]) i)
    | succeed hstate hsent =>
        have hsent' := houtlives _ _ hsent
        exact h.stay hi ⟨rfl, rfl⟩ (fun _ => by simp [Change.isPending, hstate, hsent']) rfl
          (sentFor_quiet _ _ (by simp [hstate]) i)
    | fail hstate hfailed =>
        have hfailed' := houtlives _ _ hfailed
        exact h.stay hi ⟨rfl, rfl⟩ (fun _ => by simp [Change.isPending, hstate, hfailed']) rfl
          (sentFor_quiet _ _ (by simp [hstate]) i)
    | undo hstate =>
        have hpending : ch.isPending f = true := by rw [Change.isPending, hstate]
        refine h.resolve ⟨hi, hk, hpending⟩ rfl fun _ hstanding => ?_
        rw [sentFor_quiet _ _ (by simp [hstate]) i, hstanding, Change.Kind.has_undo, if_pos hk]
  · exact h.stay hi hmoves.about (absurd · hk) (hmoves.has_eq hk) (sentFor_other _ _ hk i)

/-- **A move of a call keeps the lines alternating**, as it puts one into the queue only while its
change is pending. -/
theorem Balanced.alternates_moves (h : Balanced f first k s)
    (halternates : alternates first (s.sentFor f k) = true) {i : Nat} {ch : Change}
    (hi : s.attempts[i]? = some (.ok ch)) (client : Client)
    (attempts : List (Except ValueError Change)) :
    alternates first
      (sentFor f k
        { client
          attempts := attempts
          announced := s.announced ++ (ch.announcement? i s.client).toList }) = true := by
  by_cases hk : ch.channel.fold = k
  · by_cases hstate : ch.state = .recorded
    · rw [sentFor_post _ _ hstate hk i]
      split
      · have hpending : PendingAt f k s i ch := ⟨hi, hk, by rw [Change.isPending, hstate]⟩
        rw [alternates_concat, halternates, h.standing_of_pending hpending]
        simp
      · exact halternates
    · rwa [sentFor_quiet _ _ hstate i]
  · rwa [sentFor_other _ _ hk i]

/-- A further call keeps it all: it has not done anything. -/
theorem Balanced.call (h : Balanced f first k s) (kind : Change.Kind) (name : String) :
    Balanced f first k (s.step (.call kind name)) := by
  have hiff : ∀ i ch, PendingAt f k (s.step (.call kind name)) i ch ↔ PendingAt f k s i ch := by
    intro i ch
    constructor
    · rintro ⟨hi, hk, hpending⟩
      rcases getElem?_concat_eq_some hi with hi | ⟨-, hch⟩
      · exact ⟨hi, hk, hpending⟩
      · rw [Change.isPending, state_of_attempt hch] at hpending
        cases hpending
    · rintro ⟨hi, hk, hpending⟩
      obtain ⟨hlt, -⟩ := List.getElem?_eq_some_iff.mp hi
      exact ⟨(List.getElem?_append_left hlt).trans hi, hk, hpending⟩
  cases h with
  | settled hclear hhas => exact .settled (fun i ch hi => hclear i ch ((hiff i ch).mp hi)) hhas
  | pending hi honly hhas hstanding =>
      exact .pending ((hiff _ _).mpr hi) (fun j other hj => honly j other ((hiff j other).mp hj))
        hhas hstanding

/-- **Every event keeps it all**, unless it makes a change over a pending one. -/
theorem Balanced.step (h : Balanced f first k s)
    (halternates : alternates first (s.sentFor f k) = true) (e : Event)
    (houtlives : Registrar.Outlives s.client.connection f) (hmay : s.mayHappen f k e = true) :
    Balanced f first k (s.step e) ∧ alternates first ((s.step e).sentFor f k) = true := by
  cases e with
  | client e =>
      have hroster := roster_step s.client e
      refine ⟨?_, halternates⟩
      cases h with
      | settled hclear hhas => exact .settled hclear (hroster ▸ hhas)
      | pending hi honly hhas hstanding => exact .pending hi honly (hroster ▸ hhas) hstanding
  | call kind name => exact ⟨h.call kind name, halternates⟩
  | turn i =>
      simp only [Callers.step]
      split
      · next ch hi =>
        refine ⟨h.moves hi (ch.moves_step s.client) houtlives ?_,
          h.alternates_moves halternates hi _ _⟩
        intro hk hdue
        simp only [mayHappen, hi, hk, hdue] at hmay
        simpa [isClear_iff] using hmay
      · exact ⟨h, halternates⟩

theorem Balanced.run (h : Balanced f first k s)
    (halternates : alternates first (s.sentFor f k) = true) (events : List Event)
    (houtlives : Registrar.Outlives (s.run events).client.connection f)
    (hundisturbed : s.undisturbed f k events = true) :
    Balanced f first k (s.run events) ∧
      alternates first ((s.run events).sentFor f k) = true := by
  induction events generalizing s with
  | nil => exact ⟨h, halternates⟩
  | cons e events ih =>
      rw [undisturbed, Bool.and_eq_true] at hundisturbed
      have hlater : Registrar.Outlives s.client.connection f := fun ticket outcome houtcome =>
        houtlives _ _ (s.outlives_run (e :: events) ticket outcome houtcome)
      obtain ⟨hstep, halternates'⟩ := h.step halternates e hlater hundisturbed.1
      exact ih hstep halternates' houtlives hundisturbed.2

theorem balanced_start (f : Connection) (config : ClientConfig) (roster : Roster)
    (k : List Char) : Balanced f (roster.has k) k (start config roster) :=
  .settled (fun i ch hi => by simp [PendingAt, start] at hi) rfl

/-- The accepted lines are those that are sent in the end, at the end. -/
theorem Kept.acceptedFor_eq {asked late : List Request} (h : Kept asked late s) (k : List Char) :
    s.acceptedFor k = s.sentFor s.client.connection k := by
  rw [acceptedFor, h.accepted_eq, sentFor]

/-- **What holds of a channel in a history** in which none of its changes is made over a pending
one: the accepted lines alternate, and unless a change is pending the roster says what they
say. -/
theorem balanced_run (config : ClientConfig) (roster : Roster) (events : List Event)
    (k : List Char) :
    let s := (start config roster).run events
    (start config roster).undisturbed s.client.connection k events = true →
      alternates (roster.has k) (s.acceptedFor k) = true ∧
        ((∀ i ch, ¬ PendingAt s.client.connection k s i ch) →
          s.client.roster.has k = standing (roster.has k) (s.acceptedFor k)) := by
  intro s hundisturbed
  obtain ⟨asked, late, hkept⟩ := (kept_start config roster).run events
  obtain ⟨hbalanced, halternates⟩ :=
    (balanced_start s.client.connection config roster k).run rfl events
      (fun _ _ houtcome => houtcome) hundisturbed
  rw [hkept.acceptedFor_eq]
  exact ⟨halternates, hbalanced.has_eq⟩

/-- Of a call that has come to its end nothing is pending. -/
theorem not_pendingAt_of_answered
    (hended : ∀ ch, .ok ch ∈ s.attempts → ch.channel.fold = k →
      (Change.answer? (.ok ch)).isSome = true) (i : Nat) (ch : Change) :
    ¬ PendingAt f k s i ch := by
  rintro ⟨hi, hk, hpending⟩
  have hanswered := hended ch (List.mem_of_getElem? hi) hk
  rw [Change.answer?_of_isPending hpending] at hanswered
  cases hanswered

/-- **The roster agrees with the wire once all calls have come to their end**, for every channel of
which no change was made over a pending one: it is in exactly if the last line for it that
the transport accepted was to join, or there was none and it was in at the start. -/
theorem roster_agrees_unless_disturbed (config : ClientConfig) (roster : Roster)
    (events : List Event) (k : List Char)
    (hidle : ((start config roster).run events).isIdle = true)
    (hundisturbed : (start config roster).undisturbed
      ((start config roster).run events).client.connection k events = true) :
    ((start config roster).run events).client.roster.has k =
      standing (roster.has k) (((start config roster).run events).acceptedFor k) :=
  (balanced_run config roster events k hundisturbed).2
    (not_pendingAt_of_answered fun _ hch _ => List.all_eq_true.mp hidle _ hch)

/-- Leaving a channel while it is joined again under another spelling, with both lines accepted,
and failing to join another one meanwhile. -/
theorem overlapping_calls_agree :
    let config : ClientConfig := .ofNickname "me"
    let roster := ((start config ∅).run
      [.call .join "#x", .turn 0, .turn 0, .client (.connection (.serve (.ok ()))),
        .turn 0]).client.roster
    let events : List Event :=
      [.call .part "#x", .call .join "X", .call .join "#y", .turn 0, .turn 2, .turn 2, .turn 0,
        .turn 1, .turn 1, .client (.connection (.serve (.error .disposed))),
        .client (.connection (.serve (.ok ()))), .client (.connection (.serve (.ok ()))),
        .turn 2, .turn 1, .turn 0, .turn 2]
    let s := (start config roster).run events
    let k := "#x".toList
    s.isIdle = true ∧ (start config roster).undisturbed s.client.connection k events = true ∧
      (s.acceptedFor k).map (·.line) = ["PART #x", "JOIN #x"] ∧ s.client.roster.has k = true := by
  refine ⟨by decide +kernel, by decide +kernel, by decide +kernel, ?_⟩
  rw [roster_agrees_unless_disturbed _ _ _ _ (by decide +kernel) (by decide +kernel)]
  decide +kernel

/-- **A change made over a pending one**: a channel is left, and joined again before the line to
leave it is sent.  Neither line is accepted, and both calls take back what they did; as the
one that joined does so last, the channel is gone, though no line says that it was left. -/
theorem undone_twice :
    let config : ClientConfig := .ofNickname "me"
    let roster := ((start config ∅).run
      [.call .join "#x", .turn 0, .turn 0, .client (.connection (.serve (.ok ()))),
        .turn 0]).client.roster
    let failure : Event := .client (.connection (.serve (.error (.io "broken pipe"))))
    let s := (start config roster).run
      [.call .part "#x", .call .join "#x", .turn 0, .turn 0, .turn 1, .turn 1, failure, failure,
        .turn 0, .turn 1, .turn 0, .turn 1]
    let k := "#x".toList
    s.isIdle = true ∧ s.acceptedFor k = [] ∧
      s.client.roster.has k ≠ standing (roster.has k) (s.acceptedFor k) := by
  decide

-- Nothing has to fail.  Here the channel is left again before the line to join it is in the
-- queue, and the line to leave it goes first.
example :
    let s := (start (.ofNickname "me") ∅).run
      [.call .join "#x", .call .part "#x", .turn 0, .turn 1, .turn 1, .turn 0,
        .client (.connection (.serve (.ok ()))), .client (.connection (.serve (.ok ()))),
        .turn 0, .turn 1]
    s.isIdle = true ∧ (s.acceptedFor "#x".toList).map (·.line) = ["PART #x", "JOIN #x"] ∧
      s.client.roster.has "#x".toList = false := by
  decide

/-! ### Calls that wait for one another -/

/-- Whether along a history nobody calls before all earlier calls have come to their end. -/
def sequential (s : Callers) : List Event → Bool
  | [] => true
  | e :: rest => (!e.isCall || s.isIdle) && (s.step e).sequential rest

/-- **What calls keep that wait for one another**: only the last one has not come to its end. -/
def Lone (s : Callers) : Prop :=
  ∀ i ch, s.attempts[i]? = some (.ok ch) → Change.answer? (.ok ch) = none →
    i + 1 = s.attempts.length

theorem Lone.step (h : Lone s) (e : Event) (hwaits : (!e.isCall || s.isIdle) = true) :
    Lone (s.step e) := by
  cases e with
  | client e => exact h
  | call kind name =>
      intro i ch hi hunderway
      rw [Callers.step, List.length_append, List.length_singleton]
      rcases getElem?_concat_eq_some hi with hi | ⟨rfl, -⟩
      · have hended := List.all_eq_true.mp hwaits _ (List.mem_of_getElem? hi)
        rw [hunderway] at hended
        cases hended
      · rfl
  | turn i =>
      simp only [Callers.step]
      split
      · next ch hi =>
        intro j other hj hunderway
        simp only at hj ⊢
        rw [List.length_set]
        rcases getElem?_set_eq_some hj with ⟨rfl, hother⟩ | ⟨-, hj⟩
        · cases hother
          exact h j ch hi ((ch.moves_step s.client).answer?_eq_none hunderway)
        · exact h j other hj hunderway
      · exact h

/-- Such a call makes its change over no pending one. -/
theorem Lone.mayHappen (h : Lone s) (f : Connection) (k : List Char) (e : Event) :
    s.mayHappen f k e = true := by
  cases e with
  | client | call => rfl
  | turn i =>
      rw [Callers.mayHappen]
      split
      · next ch hi =>
        by_cases hdue : ch.isDue s.client = true
        · suffices s.isClear f k = true by simp [this]
          refine isClear_iff.mpr ?_
          rintro j other ⟨hj, -, hpending⟩
          -- Both calls have not come to their end, so they are one.
          have hstate : ch.state = .ready := by
            unfold Change.isDue at hdue
            split at hdue
            · assumption
            · cases hdue
          have hi' := h i ch hi (by rw [Change.answer?, hstate])
          have hj' := h j other hj (Change.answer?_of_isPending hpending)
          obtain rfl : i = j := by omega
          cases hi.symm.trans hj
          rw [Change.isPending, hstate] at hpending
          cases hpending
        · simp [hdue]
      · rfl

/-- Hence such calls disturb no channel. -/
theorem Lone.undisturbed (h : Lone s) (f : Connection) (k : List Char) (events : List Event)
    (hsequential : s.sequential events = true) : s.undisturbed f k events = true := by
  induction events generalizing s with
  | nil => rfl
  | cons e events ih =>
      rw [sequential, Bool.and_eq_true] at hsequential
      rw [Callers.undisturbed, h.mayHappen, Bool.true_and]
      exact ih (h.step e hsequential.1) hsequential.2

theorem lone_start (config : ClientConfig) (roster : Roster) : Lone (start config roster) := by
  intro i ch hi
  simp [start] at hi

/-- The accepted lines of a caller are those of its announcements that were sent. -/
theorem Kept.acceptedBy_eq {asked late : List Request} (h : Kept asked late s) (i : Nat) :
    s.accepted.filter (·.caller = i) =
      (s.announcedBy i).filter (·.isSent s.client.connection) := by
  rw [h.accepted_eq, announcedBy, List.filter_filter, List.filter_filter]
  exact List.filter_congr fun a _ => Bool.and_comm _ _

/-- What the answer that a caller gets says of its lines. -/
theorem Kept.lines_of_answer? {asked late : List Request} (h : Kept asked late s) {i : Nat}
    {answer : Except Failure Membership} (hanswer : s.answer? i = some answer) :
    match answer with
    | .ok .changed => ∃ ch ticket, s.attempts[i]? = some (.ok ch) ∧
        s.accepted.filter (·.caller = i) = [⟨i, ch.kind, ch.channel, ticket⟩]
    | .error (.transport _) => s.accepted.filter (·.caller = i) = []
    | _ => s.announcedBy i = [] := by
  rw [answer?, Option.bind_eq_some_iff] at hanswer
  obtain ⟨attempt, hi, hanswer⟩ := hanswer
  obtain ⟨e, rfl, rfl⟩ | ⟨ch, outcome, rfl, hstate, rfl⟩ := state_of_answer? hanswer
  · exact h.announcedBy_eq_nil fun ch hch => by simp [hi] at hch
  · have hstood := h.stands i ch hi
    rcases outcome with e | _ | _
    · simp only [Stands, hstate] at hstood
      obtain ⟨ticket, hown, hfailed⟩ := hstood
      change s.accepted.filter (·.caller = i) = []
      rw [h.acceptedBy_eq, hown]
      simp [Announcement.isSent, hfailed]
    · simp only [Stands, hstate] at hstood
      obtain ⟨ticket, hown, hsent⟩ := hstood
      refine ⟨ch, ticket, hi, ?_⟩
      rw [h.acceptedBy_eq, hown]
      simp [Announcement.isSent, hsent]
    · simp only [Stands, hstate] at hstood
      exact hstood

/-- How the roster of a client, who had joined no channel, follows the lines of those who join and
leave. -/
structure FollowsWire (config : ClientConfig) (events : List Event) : Prop where
  /-- A channel is in exactly if the last line for it that the transport accepted was to join,
  unless a call is just about to change that. -/
  membership : ∀ k,
    let s := (start config ∅).run events
    (∀ ch, .ok ch ∈ s.attempts → ch.channel.fold = k →
      (Change.answer? (.ok ch)).isSome = true) →
      s.client.roster.has k = standing false (s.acceptedFor k)
  /-- Who asks is told so, by whatever name of the channel. -/
  is_joined : ∀ name channel, Channel.normalize name = .ok channel →
    let s := (start config ∅).run events
    (∀ ch, .ok ch ∈ s.attempts → ch.channel.fold = channel.fold →
      (Change.answer? (.ok ch)).isSome = true) →
      s.client.isJoined name = standing false (s.acceptedFor channel.fold)
  /-- The lines that were accepted for a channel are to join, to leave, to join, and so on. -/
  alternating : ∀ k, alternates false (((start config ∅).run events).acceptedFor k) = true
  /-- A call that changed something had one line accepted, the one for its channel. -/
  changed : ∀ i,
    let s := (start config ∅).run events
    s.answer? i = some (.ok .changed) →
      ∃ ch ticket, s.attempts[i]? = some (.ok ch) ∧
        s.accepted.filter (·.caller = i) = [⟨i, ch.kind, ch.channel, ticket⟩]
  /-- A call that changed nothing sent nothing. -/
  unchanged : ∀ i,
    let s := (start config ∅).run events
    s.answer? i = some (.ok .unchanged) → s.announcedBy i = []
  /-- A call for what is no channel sent nothing. -/
  invalid : ∀ i e,
    let s := (start config ∅).run events
    s.answer? i = some (.error (.value e)) → s.announcedBy i = []
  /-- A call that failed to send had no line accepted. -/
  failed : ∀ i e,
    let s := (start config ∅).run events
    s.answer? i = some (.error (.transport e)) → s.accepted.filter (·.caller = i) = []
  /-- Each line that was accepted was handed to the transport as it is, by itself. -/
  verbatim :
    let s := (start config ∅).run events
    ∀ a ∈ s.accepted, Call.send a.ticket [a.line] (.ok ()) ∈ s.client.connection.calls
  /-- Joining or leaving one more channel by itself is to go on with such a history. -/
  carried_out : ∀ transport kind name,
    let s := (start config ∅).run events
    let ended := s.client.change transport kind name
    s.isIdle = true → ∃ more,
      (start config ∅).sequential (events ++ .call kind name :: more) = true ∧
        (s.run (.call kind name :: more)).client = ended.2 ∧
          (s.run (.call kind name :: more)).answer? s.attempts.length = some ended.1 ∧
            (s.run (.call kind name :: more)).isIdle = true

/-- One history after another has calls that wait for one another if both have. -/
theorem sequential_append (s : Callers) (a b : List Event) :
    s.sequential (a ++ b) = (s.sequential a && (s.run a).sequential b) := by
  induction a generalizing s with
  | nil => rfl
  | cons e a ih => rw [List.cons_append, sequential, ih, sequential, run_cons, Bool.and_assoc]

theorem sequential_of_not_isCall {events : List Event} (h : ∀ e ∈ events, e.isCall = false)
    (s : Callers) : s.sequential events = true := by
  induction events generalizing s with
  | nil => rfl
  | cons e events ih =>
      obtain ⟨he, hevents⟩ := List.forall_mem_cons.mp h
      rw [sequential, he, ih hevents]
      rfl

/-- **Membership follows the wire** while calls wait for one another, whatever else happens to the
client, whichever sends fail, and whenever it is disposed of. -/
theorem roster_follows_wire (config : ClientConfig) (events : List Event)
    (hsequential : (start config ∅).sequential events = true) : FollowsWire config events := by
  obtain ⟨asked, late, hkept⟩ := (kept_start config ∅).run events
  have hbalanced := fun k => balanced_run config ∅ events k
    ((lone_start config ∅).undisturbed _ k events hsequential)
  have hmembership : ∀ k, _ := fun k hended =>
    (hbalanced k).2 (not_pendingAt_of_answered hended)
  refine ⟨hmembership, ?_, fun k => (hbalanced k).1, ?_, ?_, ?_, ?_, ?_, ?_⟩
  · intro name channel hname s hended
    rw [Client.isJoined, hname]
    exact hmembership channel.fold hended
  · intro i s hanswer
    exact hkept.lines_of_answer? hanswer
  · intro i s hanswer
    exact hkept.lines_of_answer? hanswer
  · intro i e s hanswer
    exact hkept.lines_of_answer? hanswer
  · intro i e s hanswer
    exact hkept.lines_of_answer? hanswer
  · intro s a ha
    exact hkept.send_mem_calls ha
  · intro transport kind name s ended hidle
    obtain ⟨more, hmore, hclient, hanswer, hended⟩ :=
      exists_run_change config ∅ events transport kind name
    refine ⟨more, ?_, hclient, hanswer, hended hidle⟩
    rw [sequential_append, hsequential, sequential, hidle, sequential_of_not_isCall hmore]
    rfl

/-- Joining a channel, joining it again under another spelling, and failing to leave it. -/
theorem spellings_follow_wire :
    let config : ClientConfig := .ofNickname "me"
    let events : List Event :=
      [.call .join "#[a]", .turn 0, .turn 0, .client (.connection (.serve (.ok ()))), .turn 0,
        .call .join "\x7bA]", .turn 1, .call .part "[A\x7d", .turn 2, .turn 2,
        .client (.connection .dispose), .client (.connection .close), .turn 2, .turn 2]
    (start config ∅).sequential events = true ∧ FollowsWire config events ∧
      ((start config ∅).run events).client.isJoined "#\x7ba\x7d" = true := by
  refine ⟨by decide +kernel, ?_, by decide +kernel⟩
  exact roster_follows_wire _ _ (by decide +kernel)

end Callers
end RelayChat
