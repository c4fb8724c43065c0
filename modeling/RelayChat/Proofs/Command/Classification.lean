import RelayChat.Command.Received
import RelayChat.Proofs.Command.Content

/-!
# Which messages are commands

What a verb requires of its message is a list of fields, and a message is a command
exactly if it has them all.  `Kind.needs` has the lists; they are the whole of what the
kinds differ in.  They stand in the order in which the fields are looked for, so that of
several fields that are missing or malformed the first is the one that is reported.

Reading a field is matched with a need, and reading one field after another with a list
of needs (`Checks`).  That a reader checks what it should is then put together along the
reader, and says both things at once: what is met when it succeeds, and what is not when
it fails.

A verb is sorted by its text alone.  `Kind.word?` says which text is whose; it is stated
here once more, and not taken from the table by which verbs are sorted, so that the two
can be compared (`kind_ofText_iff`).
-/

namespace RelayChat

/-! ### Verbs -/

namespace Kind

/-- The verb of a kind, for those that have one of their own. -/
def word? : Kind → Option String
  | .privmsg => some "PRIVMSG"
  | .notice => some "NOTICE"
  | .whisper => some "WHISPER"
  | .squery => some "SQUERY"
  | .join => some "JOIN"
  | .part => some "PART"
  | .mode => some "MODE"
  | .topic => some "TOPIC"
  | .nick => some "NICK"
  | .invite => some "INVITE"
  | .kick => some "KICK"
  | .ping => some "PING"
  | .pong => some "PONG"
  | .error => some "ERROR"
  | .quit => some "QUIT"
  | .numeric | .other | .invalid => none

/-- Whether a text is three digits. -/
def IsCode (s : String) : Prop :=
  ∃ a b c : Char, s.toList = [a, b, c] ∧ a.isDigit = true ∧ b.isDigit = true ∧ c.isDigit = true

/-- Whether a verb is that of a kind.  Letter case matters. -/
def IsOf (s : String) : Kind → Prop
  | .numeric => IsCode s
  | .other => ¬ IsCode s ∧ ∀ k : Kind, k.word? ≠ some s
  | .invalid => False
  | k => k.word? = some s

end Kind

/-- The kind of the commands of a verb. -/
def Verb.kind : Verb → Kind
  | .privmsg => .privmsg
  | .notice => .notice
  | .whisper => .whisper
  | .squery => .squery
  | .join => .join
  | .part => .part
  | .mode => .mode
  | .topic => .topic
  | .nick => .nick
  | .invite => .invite
  | .kick => .kick
  | .ping => .ping
  | .pong => .pong
  | .error => .error
  | .quit => .quit
  | .numeric _ => .numeric
  | .other => .other

theorem Kind.isCode_iff (s : String) : IsCode s ↔ Line.isNumeric s.toList = true := by
  rw [Line.isNumeric, Bool.and_eq_true, beq_iff_eq, List.length_eq_three, List.all_eq_true]
  constructor
  · rintro ⟨a, b, c, hs, ha, hb, hc⟩
    exact ⟨⟨a, b, c, hs⟩, by simp [hs, ha, hb, hc]⟩
  · rintro ⟨⟨a, b, c, hs⟩, hall⟩
    exact ⟨a, b, c, hs, hall a (by simp [hs]), hall b (by simp [hs]), hall c (by simp [hs])⟩

/-- The table of verbs has each verb under its own word. -/
theorem Verb.word_of_mem_named {s : String} {verb : Verb} (h : (s, verb) ∈ named) :
    verb.kind.word? = some s := by
  have hall : ∀ entry ∈ named, entry.2.kind.word? = some entry.1 := by decide
  exact hall _ h

/-- A verb with a kind of its own is of that kind. -/
theorem Verb.kind_ofText_of_word {k : Kind} {s : String} (h : k.word? = some s) :
    (ofText s).kind = k := by
  cases k <;> simp [Kind.word?] at h <;> subst h <;> decide

/-- Three digits are a numeric reply. -/
theorem Verb.ofText_of_isCode {s : String} (h : Kind.IsCode s) :
    ofText s = .numeric (number s.toList) := by
  have hnumeric := (Kind.isCode_iff s).mp h
  have hwords : ∀ entry ∈ named, Line.isNumeric entry.1.toList = false := by decide
  unfold ofText
  split
  · next verb hlookup =>
    have hword := hwords _ (mem_named_of_lookup hlookup)
    exact absurd hnumeric (by simp [hword])
  · exact if_pos hnumeric

/-- A verb is the one of its kind. -/
theorem Verb.isOf_kind_ofText (s : String) : (ofText s).kind.IsOf s := by
  by_cases hcode : Kind.IsCode s
  · rw [ofText_of_isCode hcode]
    exact hcode
  · have hnumeric : ¬ Line.isNumeric s.toList = true := fun h => hcode ((Kind.isCode_iff s).mpr h)
    unfold ofText
    split
    · next verb hlookup =>
      have hword := word_of_mem_named (mem_named_of_lookup hlookup)
      cases verb with
      | numeric code => cases hword
      | other => cases hword
      | _ => exact hword
    · next hlookup =>
      rw [if_neg hnumeric]
      refine ⟨hcode, fun k hk => ?_⟩
      have hkind := kind_ofText_of_word hk
      rw [ofText, hlookup] at hkind
      simp only [if_neg hnumeric] at hkind
      subst hkind
      cases hk

/-- **A verb is of one kind**, and it is sorted under that. -/
theorem Verb.kind_ofText_iff {s : String} {k : Kind} : (ofText s).kind = k ↔ k.IsOf s := by
  constructor
  · rintro rfl
    exact isOf_kind_ofText s
  · intro h
    cases k with
    | numeric => rw [ofText_of_isCode h]; rfl
    | other =>
        have hkind := isOf_kind_ofText s
        generalize hverb : ofText s = verb at hkind
        cases verb with
        | numeric code => exact absurd hkind h.1
        | other => rfl
        | _ => exact absurd hkind (h.2 _)
    | invalid => exact h.elim
    | _ => exact kind_ofText_of_word h

/-- Letter case matters. -/
example : (Verb.ofText "privmsg").kind = .other := by decide

/-- The content of a message is of the kind of its verb. -/
theorem Message.Means.kind_eq {m : Message} {content : Content} (h : m.Means content) :
    content.kind = (Verb.ofText m.verb).kind := by
  cases h with
  | privmsg verb first second =>
      rw [verb, Content.ofBody]
      split <;> rfl
  | _ => rw [‹Verb.ofText m.verb = _›]; rfl

/-! ### What is required -/

/-- What a text can be required to name. -/
inductive Noun where
  | channel
  | user

namespace Noun

/-- Whether a text names such a thing. -/
def Names : Noun → String → Prop
  | .channel, s => ∃ c, Channel.ofChars? s.toList = some c
  | .user, s => ∃ u, User.ofChars? s.toList = some u

/-- What is said of a text at a position that does not. -/
def error (verb : String) (index : Nat) (value : String) : Noun → CommandError
  | .channel => .invalidChannel verb index value
  | .user => .invalidUser verb index value

end Noun

/-- What a field can be required to be. -/
inductive Form where
  /-- Any text. -/
  | any
  /-- The name of one thing. -/
  | one (noun : Noun)
  /-- Names with commas between them. -/
  | each (noun : Noun)

namespace Form

/-- Whether a text is of a form. -/
def Holds : Form → String → Prop
  | .any, _ => True
  | .one noun, s => noun.Names s
  | .each noun, s => ∀ piece ∈ Message.commaList s, noun.Names piece

/-- What is said of a text at a position that is not.  Of names with commas between them, it is
said of the first that names nothing. -/
def Fails (verb : String) (index : Nat) : Form → String → CommandError → Prop
  | .any, _, _ => False
  | .one noun, s, e => ¬ noun.Names s ∧ e = noun.error verb index s
  | .each noun, s, e => ∃ front piece back, Message.commaList s = front ++ piece :: back ∧
      (∀ name ∈ front, noun.Names name) ∧ ¬ noun.Names piece ∧ e = noun.error verb index piece

/-- A form that fails of a text does not hold of it. -/
theorem not_holds_of_fails {verb : String} {index : Nat} {form : Form} {s : String}
    {e : CommandError} (h : form.Fails verb index s e) : ¬ form.Holds s := by
  cases form with
  | any => exact h.elim
  | one noun => exact h.1
  | each noun =>
      obtain ⟨front, piece, back, hpieces, -, hpiece, -⟩ := h
      exact fun hall => hpiece (hall piece (by simp [hpieces]))

/-- The error names the verb. -/
theorem verb_of_fails {verb : String} {index : Nat} {form : Form} {s : String}
    {e : CommandError} (h : form.Fails verb index s e) : e.verb = verb := by
  have herror : ∀ (noun : Noun) (value : String), (noun.error verb index value).verb = verb := by
    intro noun value
    cases noun <;> rfl
  cases form with
  | any => exact h.elim
  | one noun => rw [h.2, herror]
  | each noun =>
      obtain ⟨front, piece, back, -, -, -, rfl⟩ := h
      exact herror noun piece

end Form

/-- Where a field is looked for. -/
inductive Place where
  /-- Among the parameters. -/
  | param (index : Nat)
  /-- Among the parameters, or else in the trailing one if it comes next. -/
  | text (index : Nat)

namespace Place

/-- The position. -/
def index : Place → Nat
  | .param index => index
  | .text index => index

/-- Whether a text stands there. -/
def Has (m : Message) : Place → String → Prop
  | .param index, s => m.param? index = some s
  | .text index, s => m.TextIs index s

/-- What stands there, as it is looked up. -/
def read (m : Message) : Place → Except CommandError String
  | .param index => m.paramAt index
  | .text index => m.textAt index

variable {m : Message} {place : Place} {s t : String}

theorem read_eq_ok_iff : place.read m = .ok s ↔ place.Has m s := by
  cases place with
  | param index => exact Message.paramAt_eq_ok_iff
  | text index => exact Message.textAt_eq_ok_iff

/-- A place that has no text says so, with its own index. -/
theorem read_eq_error {e : CommandError} (h : place.read m = .error e) :
    e = .missingParam m.verb place.index := by
  cases place with
  | param index =>
      rw [read, Message.paramAt] at h
      split at h
      · cases h
      · exact (Except.error.inj h).symm
  | text index =>
      rw [read, Message.textAt] at h
      split at h
      · cases h
      · split at h
        · cases h
        · exact (Except.error.inj h).symm
      · exact (Except.error.inj h).symm

/-- A place has one text at most. -/
theorem Has.unique (hs : place.Has m s) (ht : place.Has m t) : s = t :=
  Except.ok.inj ((read_eq_ok_iff.mpr hs).symm.trans (read_eq_ok_iff.mpr ht))

end Place

/-- What a verb requires of its message. -/
inductive Need where
  /-- There is a field, of a form. -/
  | field (place : Place) (form : Form)
  /-- There is a trailing parameter. -/
  | trailing

namespace Need

/-- Whether a message has what is required. -/
def Met (m : Message) : Need → Prop
  | .field place form => ∃ s, place.Has m s ∧ form.Holds s
  | .trailing => ∃ s, m.trailing = some s

/-- What is said of a message that has not. -/
inductive Fails (m : Message) : Need → CommandError → Prop
  | missing {place : Place} {form : Form} (absent : ∀ s, ¬ place.Has m s) :
      Fails m (.field place form) (.missingParam m.verb place.index)
  | malformed {place : Place} {form : Form} {s : String} {e : CommandError}
      (present : place.Has m s) (fails : form.Fails m.verb place.index s e) :
      Fails m (.field place form) e
  | trailing (absent : m.trailing = none) : Fails m .trailing (.missingTrailing m.verb)

variable {m : Message} {need : Need} {e : CommandError}

/-- A need that fails is not met. -/
theorem Fails.not_met (h : need.Fails m e) : ¬ need.Met m := by
  cases h with
  | missing absent => exact fun ⟨s, hs, _⟩ => absent s hs
  | malformed present fails =>
      rintro ⟨t, ht, hform⟩
      obtain rfl := present.unique ht
      exact Form.not_holds_of_fails fails hform
  | trailing absent =>
      rintro ⟨s, hs⟩
      rw [absent] at hs
      cases hs

/-- The error of a need names the verb of the message. -/
theorem Fails.verb_eq (h : need.Fails m e) : e.verb = m.verb := by
  cases h with
  | missing absent => rfl
  | malformed present fails => exact Form.verb_of_fails fails
  | trailing absent => rfl

end Need

/-- **What the verb of a kind requires**, in the order in which it is looked for. -/
def Kind.needs : Kind → List Need
  | .privmsg | .notice => [.field (.param 0) .any, .field (.text 1) .any]
  | .whisper | .squery =>
    [.field (.param 0) .any, .field (.text 1) .any, .field (.param 0) (.one .user)]
  | .join | .part => [.field (.text 0) (.one .channel)]
  | .mode | .topic => [.field (.param 0) (.one .channel)]
  | .nick => [.field (.text 0) .any]
  | .invite => [.field (.param 0) (.one .user), .field (.param 1) (.one .channel)]
  | .kick => [.field (.param 0) (.each .channel), .field (.param 1) (.each .user)]
  | .ping | .pong | .error | .quit => [.trailing]
  | .numeric | .other | .invalid => []

/-! ### Readers of one field -/

/-- A reader takes the texts of a form, and says what is to be said of the others. -/
def Form.IsReadBy {α : Type} (verb : String) (index : Nat) (form : Form)
    (read : String → Except CommandError α) : Prop :=
  ∀ s, (∀ a, read s = .ok a → form.Holds s) ∧ ∀ e, read s = .error e → form.Fails verb index s e

/-- A reader that asks a parser of names for each text. -/
theorem Form.one_isReadBy {α : Type} {verb : String} {index : Nat} {noun : Noun}
    {read : String → Except CommandError α} {parse : String → Option α}
    (hnames : ∀ s, noun.Names s ↔ ∃ a, parse s = some a)
    (hread : ∀ s, read s = (parse s).elim (.error (noun.error verb index s)) .ok) :
    (Form.one noun).IsReadBy verb index read := by
  intro s
  rw [hread, Form.Holds]
  cases h : parse s with
  | some a =>
      refine ⟨fun _ _ => (hnames s).mpr ⟨a, h⟩, fun e he => ?_⟩
      cases he
  | none =>
      refine ⟨fun a ha => ?_, fun e he => ?_⟩
      · cases ha
      · obtain rfl := Except.error.inj he
        refine ⟨fun hname => ?_, rfl⟩
        obtain ⟨a, ha⟩ := (hnames s).mp hname
        rw [h] at ha
        cases ha

namespace Message

/-- The reader of a channel is right about the form of one. -/
theorem channelFrom_reads (m : Message) (index : Nat) :
    (Form.one .channel).IsReadBy m.verb index (m.channelFrom index) := by
  refine Form.one_isReadBy (fun _ => Iff.rfl) fun s => ?_
  rw [channelFrom]
  split
  · next c hc => rw [hc, Option.elim_some]
  · next hnone => rw [hnone, Option.elim_none, Noun.error]

/-- The reader of a user is right about the form of one. -/
theorem userFrom_reads (m : Message) (index : Nat) :
    (Form.one .user).IsReadBy m.verb index (m.userFrom index) := by
  refine Form.one_isReadBy (fun _ => Iff.rfl) fun s => ?_
  rw [userFrom]
  split
  · next u hu => rw [hu, Option.elim_some]
  · next hnone => rw [hnone, Option.elim_none, Noun.error]

/-- What reads one name reads names with commas between them, one by one. -/
theorem mapM_reads {α : Type} {verb : String} {index : Nat} {noun : Noun}
    {read : String → Except CommandError α} (h : (Form.one noun).IsReadBy verb index read) :
    (Form.each noun).IsReadBy verb index fun s => (commaList s).mapM read := by
  intro s
  constructor
  · intro as has
    have hall := (mapM_eq_ok_iff.mp has).imp fun piece a ha => And.intro ((h piece).1 a ha) ha
    exact ((List.forall₂_and_left _ _).mp hall).1
  · intro e he
    obtain ⟨front, piece, back, hpieces, hfront, hpiece⟩ := mapM_eq_error he
    refine ⟨front, piece, back, hpieces, fun name hname => ?_, (h piece).2 e hpiece⟩
    obtain ⟨a, ha⟩ := hfront name hname
    exact (h name).1 a ha

end Message

/-! ### Readers of one field after another -/

/-- An error is what is to be said of the first need that is not met. -/
def Need.Reported (m : Message) (needs : List Need) (e : CommandError) : Prop :=
  ∃ met need rest, needs = met ++ need :: rest ∧ (∀ n ∈ met, n.Met m) ∧ need.Fails m e

/-- Reading checks a list of needs: all are met when it succeeds, and the first that is not is
reported when it fails. -/
def Checks (m : Message) (needs : List Need) {α : Type} : Except CommandError α → Prop
  | .ok _ => ∀ need ∈ needs, need.Met m
  | .error e => Need.Reported m needs e

namespace Checks

variable {m : Message} {α β : Type} {need : Need} {needs : List Need}

/-- The first need that fails is the one that is reported. -/
theorem of_fails {e : CommandError} (h : need.Fails m e) :
    Checks m (need :: needs) (.error e : Except CommandError α) :=
  ⟨[], need, needs, rfl, by simp, h⟩

/-- One need more, that is met. -/
theorem cons {x : Except CommandError α} (hmet : need.Met m) (h : Checks m needs x) :
    Checks m (need :: needs) x := by
  cases x with
  | ok a => exact List.forall_mem_cons.mpr ⟨hmet, h⟩
  | error e =>
      obtain ⟨met, unmet, rest, rfl, hall, hfails⟩ := h
      exact ⟨need :: met, unmet, rest, rfl, List.forall_mem_cons.mpr ⟨hmet, hall⟩, hfails⟩

/-- A reader that can only succeed adds no need. -/
theorem done {x : Except CommandError α} {f : α → Except CommandError β} {g : α → β}
    (h : Checks m needs x) (hf : ∀ a, f a = .ok (g a)) : Checks m needs (x >>= f) := by
  cases x with
  | ok a =>
      have hok : (.ok a : Except CommandError α) >>= f = .ok (g a) := hf a
      rw [hok]
      exact h
  | error e => exact h

/-- What is known to stand in a place is read as a form. -/
theorem value {place : Place} {form : Form} {s : String} {read : String → Except CommandError α}
    {f : α → Except CommandError β} (present : place.Has m s)
    (hread : form.IsReadBy m.verb place.index read)
    (hrest : ∀ a, Checks m needs (f a)) :
    Checks m (.field place form :: needs) (read s >>= f) := by
  cases h : read s with
  | ok a => exact (hrest a).cons ⟨s, present, (hread s).1 a h⟩
  | error e => exact of_fails (.malformed present ((hread s).2 e h))

/-- A place is looked up; if there is something, the rest checks the need. -/
theorem lookup {place : Place} {form : Form} {f : String → Except CommandError β}
    (hrest : ∀ s, place.Has m s → Checks m (.field place form :: needs) (f s)) :
    Checks m (.field place form :: needs) (place.read m >>= f) := by
  cases h : place.read m with
  | ok s => exact hrest s (Place.read_eq_ok_iff.mp h)
  | error e =>
      obtain rfl := Place.read_eq_error h
      refine of_fails (.missing fun s present => ?_)
      rw [Place.read_eq_ok_iff.mpr present] at h
      cases h

/-- Nothing is asked of what stands in a place. -/
theorem any (place : Place) {f : String → Except CommandError β}
    (hrest : ∀ s, place.Has m s → Checks m needs (f s)) :
    Checks m (.field place .any :: needs) (place.read m >>= f) :=
  lookup fun s present => (hrest s present).cons ⟨s, present, trivial⟩

/-- What stands in a place is read as a form. -/
theorem field (place : Place) {form : Form} {read : String → Except CommandError α}
    {f : String → α → Except CommandError β} (hread : form.IsReadBy m.verb place.index read)
    (hrest : ∀ s a, Checks m needs (f s a)) :
    Checks m (.field place form :: needs) (place.read m >>= fun s => read s >>= f s) :=
  lookup fun s present => value present hread (hrest s)

theorem trailing (m : Message) : Checks m [.trailing] m.trailingText := by
  rw [Message.trailingText]
  split
  · next s hs => exact List.forall_mem_singleton.mpr ⟨s, hs⟩
  · next hnone => exact of_fails (.trailing hnone)

/-- Without needs nothing can fail. -/
theorem nothing (a : α) : Checks m [] (.ok a) :=
  List.forall_mem_nil _

/-- An error is that of the first need that fails, with those before it met. -/
theorem reported {x : Except CommandError α} {e : CommandError} (h : Checks m needs x)
    (he : x = .error e) : Need.Reported m needs e := by
  rw [he] at h
  exact h

/-- Reading succeeds exactly if all needs are met. -/
theorem ok_iff {x : Except CommandError α} (h : Checks m needs x) :
    (∃ a, x = .ok a) ↔ ∀ need ∈ needs, need.Met m := by
  constructor
  · rintro ⟨a, rfl⟩
    exact h
  · intro hall
    cases x with
    | ok a => exact ⟨a, rfl⟩
    | error e =>
        obtain ⟨met, need, rest, rfl, -, hfails⟩ := h
        exact absurd (hall need (by simp)) hfails.not_met

end Checks

/-- The user and the text of a message to one user. -/
theorem Message.userAndText_checks (m : Message) :
    Checks m Kind.whisper.needs m.userAndText :=
  .any (.param 0) fun _ present => .any (.text 1) fun _ _ =>
    .value present (m.userFrom_reads 0) fun _ => .nothing _

/-- **What a verb requires is checked**, in order. -/
theorem Message.content_checks (m : Message) :
    Checks m (Verb.ofText m.verb).kind.needs (Content.ofMessage m) := by
  rw [Content.ofMessage]
  cases Verb.ofText m.verb with
  | privmsg => exact .any (.param 0) fun _ _ => .any (.text 1) fun _ _ => .nothing _
  | notice => exact .any (.param 0) fun _ _ => .any (.text 1) fun _ _ => .nothing _
  | whisper => exact m.userAndText_checks.done fun _ => rfl
  | squery => exact m.userAndText_checks.done fun _ => rfl
  | join => exact .field (.text 0) (m.channelFrom_reads 0) fun _ _ => .nothing _
  | part => exact .field (.text 0) (m.channelFrom_reads 0) fun _ _ => .nothing _
  | mode => exact .field (.param 0) (m.channelFrom_reads 0) fun _ _ => .nothing _
  | topic => exact .field (.param 0) (m.channelFrom_reads 0) fun _ _ => .nothing _
  | nick => exact .any (.text 0) fun _ _ => .nothing _
  | invite =>
      exact .field (.param 0) (m.userFrom_reads 0) fun _ _ =>
        .field (.param 1) (m.channelFrom_reads 1) fun _ _ => .nothing _
  | kick =>
      exact .field (.param 0) (mapM_reads (m.channelFrom_reads 0)) fun _ _ =>
        .field (.param 1) (mapM_reads (m.userFrom_reads 1)) fun _ _ => .nothing _
  | ping => exact (Checks.trailing m).done fun _ => rfl
  | pong => exact (Checks.trailing m).done fun _ => rfl
  | error => exact (Checks.trailing m).done fun _ => rfl
  | quit => exact (Checks.trailing m).done fun _ => rfl
  | numeric code => exact .nothing _
  | other => exact .nothing _

/-! ### Messages -/

/-- A command is checked for the needs of its kind, in their order. -/
theorem Message.command_checks (m : Message) :
    Checks m (Verb.ofText m.verb).kind.needs (Command.ofMessage m) := by
  have hchecks := m.content_checks
  rw [Command.ofMessage]
  split
  · next content hcontent =>
    rw [hcontent] at hchecks
    exact hchecks
  · next e hcontent =>
    rw [hcontent] at hchecks
    exact hchecks

theorem Command.ofMessage_eq_ok {m : Message} {c : Command} (h : Command.ofMessage m = .ok c) :
    c.message = m ∧ m.Means c.content := by
  rw [Command.ofMessage] at h
  split at h
  · next content hcontent =>
    obtain rfl := Except.ok.inj h
    exact ⟨rfl, Message.means_of_ofMessage hcontent⟩
  · cases h

namespace Message

/-- **What becomes of a message** whose verb is of a kind. -/
structure Classified (m : Message) (k : Kind) : Prop where
  /-- The verb is of that kind and of no other. -/
  verb : ∀ k' : Kind, k'.IsOf m.verb ↔ k' = k
  /-- The message is a command exactly if it has what the kind requires. -/
  accepted : (∃ c, Command.ofMessage m = .ok c) ↔ ∀ need ∈ k.needs, need.Met m
  /-- The command is of that kind, keeps the message, and has the fields that the message means. -/
  command : ∀ c, Command.ofMessage m = .ok c →
    c.content.kind = k ∧ c.message = m ∧ m.Means c.content
  /-- Three digits make a numeric reply, with the code that they write. -/
  code : ∀ a b c : Char, m.verb.toList = [a, b, c] →
    a.isDigit = true → b.isDigit = true → c.isDigit = true →
    Command.ofMessage m = .ok ⟨m, .numeric (100 * (a.toNat - '0'.toNat) +
      10 * (b.toNat - '0'.toNat) + (c.toNat - '0'.toNat))⟩
  /-- Of a message that is no command, the first thing that it has not is reported, under the
  verb, and the message is kept. -/
  refused : ∀ e, Command.ofMessage m = .error e →
    Need.Reported m k.needs e ∧ e.verb = m.verb ∧
      ∀ line, Received.ofMessage line m = .invalid line (some m) (.command e)

/-- **Every message is classified**, under the kind of its verb. -/
theorem classification_exact (m : Message) : m.Classified (Verb.ofText m.verb).kind where
  verb k' := ⟨fun h => (Verb.kind_ofText_iff.mpr h).symm, fun h => Verb.kind_ofText_iff.mp h.symm⟩
  accepted := m.command_checks.ok_iff
  command c hc := by
    obtain ⟨hmessage, hmeans⟩ := Command.ofMessage_eq_ok hc
    exact ⟨hmeans.kind_eq, hmessage, hmeans⟩
  code a b c hverb ha hb hc := by
    have hcode := Verb.ofText_of_isCode ⟨a, b, c, hverb, ha, hb, hc⟩
    have hnumber : Verb.number [a, b, c] = 100 * (a.toNat - '0'.toNat) +
        10 * (b.toNat - '0'.toNat) + (c.toNat - '0'.toNat) := by
      simp only [Verb.number, List.foldl_cons, List.foldl_nil]
      omega
    rw [hverb, hnumber] at hcode
    rw [Command.ofMessage, ofMessage_of_means (.numeric hcode)]
  refused e he := by
    have hreported := m.command_checks.reported he
    refine ⟨hreported, ?_, fun line => ?_⟩
    · obtain ⟨met, need, rest, -, -, hfails⟩ := hreported
      exact hfails.verb_eq
    · rw [Received.ofMessage, he]

end Message

end RelayChat
