import RelayChat.Proofs.Channel.Normal
import RelayChat.Proofs.Client.Callers
import RelayChat.Proofs.Command.Said

/-!
# What a call to join or to leave sends

A caller names a channel by any text.  The text is lower-cased, read as a channel, and
put behind the verb, and nothing is quoted on the way.  So what keeps a name from
saying anything else is that every stage takes out what the next one would stop at: a
channel is a parameter (`Channel.isMiddle_of_ofChars?`), and a parameter has neither a
space nor a line break.

What a call is about is fixed when it is made: along any history the calls only become
more (`Callers.abouts_run`).  So at any later time the line that the call puts into the
queue, the announcement that records it and the request that the connection takes up
are those of the name that was called with.
-/

namespace RelayChat

open Grammar

/-! ### The line -/

namespace Change.Kind

/-- What the line of a call says. -/
def content : Change.Kind → Channel → Content
  | .join, channel => .join channel
  | .part, channel => .part channel

/-- The command that the line of a call is. -/
def command (kind : Change.Kind) (channel : Channel) : Command :=
  ⟨⟨∅, none, kind.verb, [channel.text], none⟩, kind.content channel⟩

/-- The line of a call. -/
def line (kind : Change.Kind) (channel : Channel) : String :=
  kind.verb ++ " " ++ channel.text

theorem text_message (kind : Change.Kind) (channel : Channel) :
    (kind.command channel).message.text = kind.line channel := by
  apply String.toList_inj.mp
  simp [command, line, Message.text, Message.chars, Message.tagsChars, Message.sourceChars,
    Message.trailingChars]

/-- **A well-formed channel is said as it is.** -/
theorem isSaidBy_line (kind : Change.Kind) {channel : Channel} (h : channel.IsValid) :
    (kind.command channel).IsSaidBy (kind.line channel) := by
  have hread : Channel.ofChars? channel.text.toList = some channel := by
    rw [Channel.text, String.toList_ofList]
    exact Channel.ofChars?_eq_some_iff.mpr ⟨h, rfl⟩
  have hverb : IsVerb kind.verb.toList := by cases kind <;> decide
  have hformed : (kind.command channel).message.WellFormed := by
    refine (Message.wellFormed_plain_iff hverb (by simp)).mpr ⟨fun param hparam => ?_, by simp⟩
    rw [List.mem_singleton.mp hparam]
    exact Channel.isMiddle_of_ofChars? hread
  have hmeans : (kind.command channel).message.Means (kind.content channel) := by
    cases kind with
    | join => exact .join (show Verb.ofText "JOIN" = .join by decide) (.inl rfl) hread
    | part => exact .part (show Verb.ofText "PART" = .part by decide) (.inl rfl) hread
  rw [← text_message]
  exact hformed.isSaidBy rfl hmeans

end Change.Kind

/-- The channel that a name means is well formed. -/
theorem Channel.isValid_of_normalize {name : String} {channel : Channel}
    (h : normalize name = .ok channel) : channel.IsValid := by
  rw [normalize_eq_ok_iff, normalChars?_eq, Option.or_eq_some_iff] at h
  rcases h with h | ⟨-, h⟩
  · exact (ofChars?_eq_some_iff.mp h).1
  · exact (ofChars?_eq_some_iff.mp h).1

/-- A name that means no channel is named in the error. -/
theorem Channel.eq_of_normalize_error {name : String} {e : ValueError}
    (h : normalize name = .error e) : e = .channel name := by
  unfold normalize at h
  split at h
  · cases h
  · exact (Except.error.inj h).symm

/-- **What a move asks of the connection**: to send the line, which is then announced, or
nothing. -/
theorem Change.Moves.asks {ch ch' : Change} {c c' : Client} (hmoves : Change.Moves ch c ch' c')
    (caller : Nat) :
    (c'.connection = c.connection ∧ (ch.announcement? caller c).toList = []) ∨
      (c'.connection = c.connection.step (.send [ch.line]) ∧
        (ch.announcement? caller c).toList =
          [⟨caller, ch.kind, ch.channel, c.connection.issued⟩]) := by
  cases hmoves with
  | post hstate => exact .inr ⟨rfl, Change.announcement?_of_recorded hstate _ _⟩
  | keep hstate | record hstate | wait hstate | succeed hstate | fail hstate | undo hstate
    | rest hstate =>
      exact .inl ⟨rfl, Change.announcement?_of_not_recorded (by simp [hstate]) _ _⟩

/-! ### What calls are about -/

namespace Callers

variable {s : Callers} {asked late : List Request} {i : Nat} {kind : Change.Kind}
  {channel : Channel}

/-- What an attempt is about: joining or leaving a channel, or a text that means none. -/
def about (attempt : Except ValueError Change) : Except ValueError (Change.Kind × Channel) :=
  attempt.map fun ch => (ch.kind, ch.channel)

/-- What the calls are about, in the order in which they were made. -/
def abouts (s : Callers) : List (Except ValueError (Change.Kind × Channel)) :=
  s.attempts.map about

/-- **An event leaves the calls about what they are about.** -/
theorem abouts_step (s : Callers) (e : Event) : s.abouts <+: (s.step e).abouts := by
  cases e with
  | client e => exact List.prefix_rfl
  | call kind name =>
      simp only [abouts, step, List.map_append]
      exact List.prefix_append _ _
  | turn i =>
      simp only [step]
      split
      · next ch hi =>
        obtain ⟨hkind, hchannel⟩ := (ch.moves_step s.client).about
        have hsame : about (.ok (ch.step s.client).1) = about (.ok ch) := by
          simp [about, Except.map, hkind, hchannel]
        have hmap : (s.attempts.map about)[i]? = some (about (.ok ch)) := by
          rw [List.getElem?_map, hi]
          rfl
        obtain ⟨hlt, hget⟩ := List.getElem?_eq_some_iff.mp hmap
        simp only [abouts, List.map_set, hsame, ← hget, List.set_getElem_self]
        exact List.prefix_rfl
      · exact List.prefix_rfl

theorem abouts_run (s : Callers) (events : List Event) : s.abouts <+: (s.run events).abouts := by
  induction events generalizing s with
  | nil => exact List.prefix_rfl
  | cons e events ih => exact (s.abouts_step e).trans (ih (s.step e))

/-- What was called with at some time is what the call is about at any later time. -/
theorem about_run_call (s : Callers) (kind : Change.Kind) (name : String) (after : List Event) :
    (s.run (.call kind name :: after)).attempts[s.attempts.length]?.map about =
      some ((Channel.normalize name).map fun channel => (kind, channel)) := by
  have hprefix := (s.step (.call kind name)).abouts_run after
  have hcalled : (s.step (.call kind name)).abouts[s.attempts.length]? =
      some ((Channel.normalize name).map fun channel => (kind, channel)) := by
    rw [abouts, List.getElem?_map, step, List.getElem?_concat_length]
    cases hname : Channel.normalize name <;> simp [Change.attempt, about, Except.map, hname]
  obtain ⟨hlt, hget⟩ := List.getElem?_eq_some_iff.mp hcalled
  rw [run_cons, ← List.getElem?_map, ← hget]
  exact List.prefix_iff_getElem?.mp hprefix _ hlt

/-! ### What calls send -/

/-- **A call was refused**: it is answered with the error, and nothing comes of it. -/
structure Refused (s : Callers) (caller : Nat) (e : ValueError) : Prop where
  /-- The caller is told of the error. -/
  answered : s.answer? caller = some (.error (.value e))
  /-- No line has been put into the queue for it. -/
  silent : s.announcedBy caller = []
  /-- Its turn changes nothing. -/
  rests : s.step (.turn caller) = s

/-- **A call says one line at most**, and no other. -/
structure Says (s : Callers) (caller : Nat) (kind : Change.Kind) (channel : Channel) : Prop where
  /-- Its turn asks the connection for nothing, or to send the line, which is then announced. -/
  turn : ((s.step (.turn caller)).client.connection = s.client.connection ∧
      (s.step (.turn caller)).announced = s.announced) ∨
    ((s.step (.turn caller)).client.connection =
        s.client.connection.step (.send [kind.line channel]) ∧
      (s.step (.turn caller)).announced =
        s.announced ++ [⟨caller, kind, channel, s.client.connection.issued⟩])
  /-- It announces no second one. -/
  once : (s.announcedBy caller).length ≤ 1
  /-- What the transport is handed for it is the line, by itself. -/
  handed : ∀ a ∈ s.announcedBy caller, ∀ lines outcome,
    Call.send a.ticket lines outcome ∈ s.client.connection.calls → lines = [kind.line channel]

theorem Kept.refused (h : Kept asked late s) {e : ValueError}
    (hi : s.attempts[i]? = some (.error e)) : s.Refused i e where
  answered := by rw [answer?, hi]; rfl
  silent := h.announcedBy_eq_nil fun ch => by rw [hi]; simp
  rests := by simp only [Callers.step, hi]

/-- A call has one announcement at most, which is of what the call is about. -/
theorem Stands.cases {own : List Announcement} {c : Connection} {ch : Change}
    (h : Stands own c i ch) :
    own = [] ∨ ∃ ticket, own = [⟨i, ch.kind, ch.channel, ticket⟩] := by
  unfold Stands at h
  split at h
  · exact .inl h
  · exact .inl h
  · exact .inl h
  · exact .inr ⟨_, h⟩
  · exact .inr (h.imp fun _ => And.left)
  · exact .inr (h.imp fun _ => And.left)
  · exact .inr (h.imp fun _ => And.left)

/-- What was handed over with the ticket of an announcement was its line. -/
theorem Kept.lines_eq (h : Kept asked late s) {a : Announcement} (ha : a ∈ s.announced)
    {lines : List String} {outcome : Outcome}
    (hcall : Call.send a.ticket lines outcome ∈ s.client.connection.calls) : lines = [a.line] := by
  have hserved : Request.send a.ticket lines ∈ asked := by
    rw [h.ledger.order, List.append_assoc]
    exact List.mem_append_left _ (Connection.send_mem_served.mpr ⟨outcome, hcall⟩)
  have hsend : ∀ {lines : List String}, Request.send a.ticket lines ∈ asked →
      (a.ticket, lines) ∈ asked.filterMap Request.toSend? :=
    fun hmem => List.mem_filterMap.mpr ⟨_, hmem, rfl⟩
  have hsame := List.inj_on_of_nodup_map (Registrar.nodup_toSend h.ledger) (hsend hserved)
    (hsend (h.among a ha)) rfl
  exact (Prod.mk.inj hsame).2

theorem Kept.says (h : Kept asked late s) {ch : Change} (hi : s.attempts[i]? = some (.ok ch)) :
    s.Says i ch.kind ch.channel := by
  have hown := (h.stands i ch hi).cases
  refine ⟨?_, ?_, fun a ha lines outcome hcall => ?_⟩
  · simp only [Callers.step, hi]
    rcases (ch.moves_step s.client).asks i with ⟨hconnection, hsilent⟩ | ⟨hconnection, hposted⟩
    · rw [hsilent, List.append_nil]
      exact .inl ⟨hconnection, rfl⟩
    · rw [hposted]
      exact .inr ⟨hconnection, rfl⟩
  · rcases hown with hown | ⟨ticket, hown⟩ <;> simp [hown]
  · rw [h.lines_eq (List.mem_of_mem_filter ha) hcall]
    rcases hown with hown | ⟨ticket, hown⟩
    · rw [hown] at ha
      cases ha
    · rw [hown, List.mem_singleton] at ha
      rw [ha]
      rfl

/-- **No name says anything else.**  Whatever text a channel is named by in a call to join or to
leave, and whatever else happens before and after, one of two things holds.  Either the name means
no channel, and the call is refused with it and nothing is sent.  Or the call sends nothing but
one line, which is said as JOIN or PART of the channel that the name means, with no tags, no source
and that channel as its only parameter; carried out by itself it is a call like any other. -/
theorem names_say_one_line (config : ClientConfig) (roster : Roster) (before after : List Event)
    (kind : Change.Kind) (name : String) :
    let called := (start config roster).run before
    let s := called.run (.call kind name :: after)
    match Channel.normalize name with
    | .error e =>
      e = .channel name ∧ s.Refused called.attempts.length e ∧
        ∀ transport (c : Client), c.change transport kind name = (.error (.value e), c)
    | .ok channel =>
      Command.IsSaidBy ⟨⟨∅, none, kind.verb, [channel.text], none⟩, kind.content channel⟩
          (kind.line channel) ∧
        s.Says called.attempts.length kind channel ∧
        ∀ transport, ∃ more, (∀ e ∈ more, e.isCall = false) ∧
          (called.run (.call kind name :: more)).client =
            (called.client.change transport kind name).2 := by
  intro called s
  have habout := called.about_run_call kind name after
  obtain ⟨asked, late, h⟩ := (kept_start config roster).run (before ++ .call kind name :: after)
  rw [run_append] at h
  obtain ⟨attempt, hi, habout⟩ := Option.map_eq_some_iff.mp habout
  cases hname : Channel.normalize name with
  | error e =>
      rw [hname] at habout
      cases attempt with
      | ok ch => cases habout
      | error e' =>
          obtain rfl := Except.error.inj habout
          refine ⟨Channel.eq_of_normalize_error hname, h.refused hi, fun transport c => ?_⟩
          rw [Client.change, hname]
  | ok channel =>
      rw [hname] at habout
      cases attempt with
      | error e => cases habout
      | ok ch =>
          obtain ⟨rfl, rfl⟩ := Prod.mk.inj (Except.ok.inj habout)
          refine ⟨ch.kind.isSaidBy_line (Channel.isValid_of_normalize hname), h.says hi, ?_⟩
          intro transport
          obtain ⟨more, hmore, hclient, -⟩ :=
            exists_run_change config roster before transport ch.kind name
          exact ⟨more, hmore, hclient⟩

/-- A line break in a name, or a second parameter, makes it no channel. -/
example : Channel.normalize "#a\r\nQUIT" = .error (.channel "#a\r\nQUIT") ∧
    Channel.normalize "a :b" = .error (.channel "a :b") := by
  decide +kernel

end Callers

end RelayChat
