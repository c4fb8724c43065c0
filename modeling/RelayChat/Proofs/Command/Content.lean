import RelayChat.Proofs.Command.Fields

/-!
# What a message means, as a relation

`Content.ofMessage` reads one field after the other and stops at the first that is
not there.  `Message.Means` is what is left when it does not stop: for each verb,
which parts of the message the fields are, in no order and with no errors.  The two
agree (`ofMessage_eq_ok_iff`), and an argument about the commands of a verb is a
case of `Means`.

The relation only looks at the parts that a verb uses.  A message may mean the same
as another without being equal to it; that is the whole point of a canonical form.
-/

namespace RelayChat

/-- What is looked up in the table of verbs is an entry of it. -/
theorem Verb.mem_named_of_lookup {s : String} {verb : Verb} (h : named.lookup s = some verb) :
    (s, verb) ∈ named := by
  obtain ⟨before, after, hentries, -⟩ := List.lookup_eq_some_iff.mp h
  rw [hentries]
  exact List.mem_append_right _ List.mem_cons_self

namespace Message

variable {m : Message} {index : Nat} {s : String}

/-! ### Positions -/

/-- `s` stands in a position: as the parameter there, or as the trailing parameter that comes
next. -/
def TextIs (m : Message) (index : Nat) (s : String) : Prop :=
  m.param? index = some s ∨ (m.params.length = index ∧ m.trailing = some s)

theorem paramAt_eq_ok_iff : m.paramAt index = .ok s ↔ m.param? index = some s := by
  unfold paramAt
  split <;> simp_all

theorem textAt_eq_ok_iff : m.textAt index = .ok s ↔ m.TextIs index s := by
  unfold textAt TextIs
  split
  · next param hparam =>
    have hlen : ¬ m.params.length = index := by
      rintro rfl
      simp [param?] at hparam
    simp [hparam, hlen]
  · next trailing hparam htrailing =>
    by_cases hlen : m.params.length = index
    · simp [hparam, htrailing, hlen]
    · simp [hparam, hlen]
  · next hparam htrailing => simp [hparam, htrailing]

theorem trailingText_eq_ok_iff : m.trailingText = .ok s ↔ m.trailing = some s := by
  unfold trailingText
  split <;> simp_all

theorem channelFrom_eq_ok_iff {c : Channel} :
    m.channelFrom index s = .ok c ↔ Channel.ofChars? s.toList = some c := by
  unfold channelFrom
  split <;> simp_all

theorem userFrom_eq_ok_iff {u : User} :
    m.userFrom index s = .ok u ↔ User.ofChars? s.toList = some u := by
  unfold userFrom
  split <;> simp_all

/-- A list is read item by item. -/
theorem mapM_eq_ok_iff {ε α β : Type} {f : α → Except ε β} {as : List α} {bs : List β} :
    as.mapM f = .ok bs ↔ List.Forall₂ (fun a b => f a = .ok b) as bs := by
  induction as generalizing bs with
  | nil =>
      rw [List.mapM_nil, List.forall₂_nil_left_iff]
      exact ⟨fun h => (Except.ok.inj h).symm, fun h => h ▸ rfl⟩
  | cons a as ih =>
      rw [List.mapM_cons, bind_eq_ok_iff, List.forall₂_cons_left_iff]
      constructor
      · rintro ⟨b, hb, h⟩
        obtain ⟨more, hmore, h⟩ := bind_eq_ok_iff.mp h
        exact ⟨b, more, hb, ih.mp hmore, (Except.ok.inj h).symm⟩
      · rintro ⟨b, more, hb, hmore, rfl⟩
        exact ⟨b, hb, bind_of_ok (ih.mpr hmore) rfl⟩

/-- A list is read up to the first item that is not. -/
theorem mapM_eq_error {ε α β : Type} {f : α → Except ε β} {as : List α} {e : ε}
    (h : as.mapM f = .error e) :
    ∃ front a back, as = front ++ a :: back ∧ (∀ b ∈ front, ∃ c, f b = .ok c) ∧
      f a = .error e := by
  induction as with
  | nil => cases h
  | cons a as ih =>
      rw [List.mapM_cons, bind_eq_error_iff] at h
      rcases h with h | ⟨c, hc, h⟩
      · exact ⟨[], a, as, rfl, by simp, h⟩
      · rcases bind_eq_error_iff.mp h with h | ⟨cs, -, h⟩
        · obtain ⟨front, b, back, rfl, hfront, hb⟩ := ih h
          exact ⟨a :: front, b, back, rfl, List.forall_mem_cons.mpr ⟨⟨c, hc⟩, hfront⟩, hb⟩
        · cases h

/-! ### Contents -/

/-- **What a message means**, one rule for each verb. -/
inductive Means (m : Message) : Content → Prop
  | privmsg {target body : String} (verb : Verb.ofText m.verb = .privmsg)
      (first : m.param? 0 = some target) (second : m.TextIs 1 body) :
      Means m (.ofBody (.ofText target) body)
  | notice {target text : String} (verb : Verb.ofText m.verb = .notice)
      (first : m.param? 0 = some target) (second : m.TextIs 1 text) :
      Means m (.notice (.ofText target) text)
  | whisper {name text : String} {user : User} (verb : Verb.ofText m.verb = .whisper)
      (first : m.param? 0 = some name) (named : User.ofChars? name.toList = some user)
      (second : m.TextIs 1 text) : Means m (.whisper user text .twitch)
  | squery {name text : String} {user : User} (verb : Verb.ofText m.verb = .squery)
      (first : m.param? 0 = some name) (named : User.ofChars? name.toList = some user)
      (second : m.TextIs 1 text) : Means m (.squery user text)
  | join {name : String} {channel : Channel} (verb : Verb.ofText m.verb = .join)
      (first : m.TextIs 0 name) (named : Channel.ofChars? name.toList = some channel) :
      Means m (.join channel)
  | part {name : String} {channel : Channel} (verb : Verb.ofText m.verb = .part)
      (first : m.TextIs 0 name) (named : Channel.ofChars? name.toList = some channel) :
      Means m (.part channel)
  | mode {name : String} {channel : Channel} (verb : Verb.ofText m.verb = .mode)
      (first : m.param? 0 = some name) (named : Channel.ofChars? name.toList = some channel) :
      Means m (.mode channel (m.params.drop 1 ++ m.trailing.toList))
  | topic {name : String} {channel : Channel} (verb : Verb.ofText m.verb = .topic)
      (first : m.param? 0 = some name) (named : Channel.ofChars? name.toList = some channel) :
      Means m (.topic channel m.trailing)
  | nick {nickname : String} (verb : Verb.ofText m.verb = .nick)
      (first : m.TextIs 0 nickname) : Means m (.nick nickname)
  | invite {name place : String} {user : User} {channel : Channel}
      (verb : Verb.ofText m.verb = .invite) (first : m.param? 0 = some name)
      (named : User.ofChars? name.toList = some user) (second : m.param? 1 = some place)
      (located : Channel.ofChars? place.toList = some channel) : Means m (.invite user channel)
  | kick {places names : String} {channels : List Channel} {users : List User}
      (verb : Verb.ofText m.verb = .kick) (first : m.param? 0 = some places)
      (located : List.Forall₂ (fun place c => Channel.ofChars? place.toList = some c)
        (commaList places) channels)
      (second : m.param? 1 = some names)
      (named : List.Forall₂ (fun name u => User.ofChars? name.toList = some u)
        (commaList names) users) : Means m (.kick channels users m.trailing)
  | ping {host : String} (verb : Verb.ofText m.verb = .ping) (last : m.trailing = some host) :
      Means m (.ping host)
  | pong {host : String} (verb : Verb.ofText m.verb = .pong) (last : m.trailing = some host) :
      Means m (.pong host)
  | error {text : String} (verb : Verb.ofText m.verb = .error) (last : m.trailing = some text) :
      Means m (.error text)
  | quit {text : String} (verb : Verb.ofText m.verb = .quit) (last : m.trailing = some text) :
      Means m (.quit text)
  | numeric {code : Nat} (verb : Verb.ofText m.verb = .numeric code) : Means m (.numeric code)
  | other (verb : Verb.ofText m.verb = .other) : Means m .other

variable {content : Content}

/-- The user and the text of a message to one user. -/
theorem userAndText_eq_ok_iff {u : User} :
    m.userAndText = .ok (u, s) ↔
      ∃ name, m.param? 0 = some name ∧ User.ofChars? name.toList = some u ∧ m.TextIs 1 s := by
  constructor
  · intro h
    obtain ⟨name, hname, h⟩ := bind_eq_ok_iff.mp h
    obtain ⟨text, htext, h⟩ := bind_eq_ok_iff.mp h
    obtain ⟨user, huser, h⟩ := bind_eq_ok_iff.mp h
    obtain ⟨rfl, rfl⟩ := Prod.mk.inj (Except.ok.inj h)
    exact ⟨name, paramAt_eq_ok_iff.mp hname, userFrom_eq_ok_iff.mp huser,
      textAt_eq_ok_iff.mp htext⟩
  · rintro ⟨name, hname, huser, htext⟩
    rw [userAndText]
    refine bind_of_ok (paramAt_eq_ok_iff.mpr hname) (bind_of_ok (textAt_eq_ok_iff.mpr htext) ?_)
    exact bind_of_ok (userFrom_eq_ok_iff.mpr huser) rfl

/-- What is read is meant. -/
theorem means_of_ofMessage (h : Content.ofMessage m = .ok content) : m.Means content := by
  unfold Content.ofMessage at h
  split at h
  case h_1 hverb =>
      obtain ⟨target, htarget, h⟩ := bind_eq_ok_iff.mp h
      obtain ⟨body, hbody, h⟩ := bind_eq_ok_iff.mp h
      obtain rfl := Except.ok.inj h
      exact .privmsg hverb (paramAt_eq_ok_iff.mp htarget) (textAt_eq_ok_iff.mp hbody)
  case h_2 hverb =>
      obtain ⟨target, htarget, h⟩ := bind_eq_ok_iff.mp h
      obtain ⟨text, htext, h⟩ := bind_eq_ok_iff.mp h
      obtain rfl := Except.ok.inj h
      exact .notice hverb (paramAt_eq_ok_iff.mp htarget) (textAt_eq_ok_iff.mp htext)
  case h_3 hverb =>
      obtain ⟨⟨user, text⟩, hboth, h⟩ := bind_eq_ok_iff.mp h
      obtain rfl := Except.ok.inj h
      obtain ⟨name, hname, huser, htext⟩ := userAndText_eq_ok_iff.mp hboth
      exact .whisper hverb hname huser htext
  case h_4 hverb =>
      obtain ⟨⟨user, text⟩, hboth, h⟩ := bind_eq_ok_iff.mp h
      obtain rfl := Except.ok.inj h
      obtain ⟨name, hname, huser, htext⟩ := userAndText_eq_ok_iff.mp hboth
      exact .squery hverb hname huser htext
  case h_5 hverb =>
      obtain ⟨name, hname, h⟩ := bind_eq_ok_iff.mp h
      obtain ⟨channel, hchannel, h⟩ := bind_eq_ok_iff.mp h
      obtain rfl := Except.ok.inj h
      exact .join hverb (textAt_eq_ok_iff.mp hname) (channelFrom_eq_ok_iff.mp hchannel)
  case h_6 hverb =>
      obtain ⟨name, hname, h⟩ := bind_eq_ok_iff.mp h
      obtain ⟨channel, hchannel, h⟩ := bind_eq_ok_iff.mp h
      obtain rfl := Except.ok.inj h
      exact .part hverb (textAt_eq_ok_iff.mp hname) (channelFrom_eq_ok_iff.mp hchannel)
  case h_7 hverb =>
      obtain ⟨name, hname, h⟩ := bind_eq_ok_iff.mp h
      obtain ⟨channel, hchannel, h⟩ := bind_eq_ok_iff.mp h
      obtain rfl := Except.ok.inj h
      exact .mode hverb (paramAt_eq_ok_iff.mp hname) (channelFrom_eq_ok_iff.mp hchannel)
  case h_8 hverb =>
      obtain ⟨name, hname, h⟩ := bind_eq_ok_iff.mp h
      obtain ⟨channel, hchannel, h⟩ := bind_eq_ok_iff.mp h
      obtain rfl := Except.ok.inj h
      exact .topic hverb (paramAt_eq_ok_iff.mp hname) (channelFrom_eq_ok_iff.mp hchannel)
  case h_9 hverb =>
      obtain ⟨nickname, hnickname, h⟩ := bind_eq_ok_iff.mp h
      obtain rfl := Except.ok.inj h
      exact .nick hverb (textAt_eq_ok_iff.mp hnickname)
  case h_10 hverb =>
      obtain ⟨name, hname, h⟩ := bind_eq_ok_iff.mp h
      obtain ⟨user, huser, h⟩ := bind_eq_ok_iff.mp h
      obtain ⟨place, hplace, h⟩ := bind_eq_ok_iff.mp h
      obtain ⟨channel, hchannel, h⟩ := bind_eq_ok_iff.mp h
      obtain rfl := Except.ok.inj h
      exact .invite hverb (paramAt_eq_ok_iff.mp hname) (userFrom_eq_ok_iff.mp huser)
        (paramAt_eq_ok_iff.mp hplace) (channelFrom_eq_ok_iff.mp hchannel)
  case h_11 hverb =>
      obtain ⟨places, hplaces, h⟩ := bind_eq_ok_iff.mp h
      obtain ⟨channels, hchannels, h⟩ := bind_eq_ok_iff.mp h
      obtain ⟨names, hnames, h⟩ := bind_eq_ok_iff.mp h
      obtain ⟨users, husers, h⟩ := bind_eq_ok_iff.mp h
      obtain rfl := Except.ok.inj h
      exact .kick hverb (paramAt_eq_ok_iff.mp hplaces)
        ((mapM_eq_ok_iff.mp hchannels).imp fun _ _ => channelFrom_eq_ok_iff.mp)
        (paramAt_eq_ok_iff.mp hnames)
        ((mapM_eq_ok_iff.mp husers).imp fun _ _ => userFrom_eq_ok_iff.mp)
  case h_12 hverb =>
      obtain ⟨host, hhost, h⟩ := bind_eq_ok_iff.mp h
      obtain rfl := Except.ok.inj h
      exact .ping hverb (trailingText_eq_ok_iff.mp hhost)
  case h_13 hverb =>
      obtain ⟨host, hhost, h⟩ := bind_eq_ok_iff.mp h
      obtain rfl := Except.ok.inj h
      exact .pong hverb (trailingText_eq_ok_iff.mp hhost)
  case h_14 hverb =>
      obtain ⟨text, htext, h⟩ := bind_eq_ok_iff.mp h
      obtain rfl := Except.ok.inj h
      exact .error hverb (trailingText_eq_ok_iff.mp htext)
  case h_15 hverb =>
      obtain ⟨text, htext, h⟩ := bind_eq_ok_iff.mp h
      obtain rfl := Except.ok.inj h
      exact .quit hverb (trailingText_eq_ok_iff.mp htext)
  case h_16 code hverb =>
      obtain rfl := Except.ok.inj h
      exact .numeric hverb
  case h_17 hverb =>
      obtain rfl := Except.ok.inj h
      exact .other hverb

/-- What is meant is read. -/
theorem ofMessage_of_means (h : m.Means content) : Content.ofMessage m = .ok content := by
  unfold Content.ofMessage
  cases h with
  | privmsg verb first second =>
      rw [verb]
      exact bind_of_ok (paramAt_eq_ok_iff.mpr first) (bind_of_ok (textAt_eq_ok_iff.mpr second) rfl)
  | notice verb first second =>
      rw [verb]
      exact bind_of_ok (paramAt_eq_ok_iff.mpr first) (bind_of_ok (textAt_eq_ok_iff.mpr second) rfl)
  | whisper verb first named second =>
      rw [verb]
      exact bind_of_ok (userAndText_eq_ok_iff.mpr ⟨_, first, named, second⟩) rfl
  | squery verb first named second =>
      rw [verb]
      exact bind_of_ok (userAndText_eq_ok_iff.mpr ⟨_, first, named, second⟩) rfl
  | join verb first named =>
      rw [verb]
      exact bind_of_ok (textAt_eq_ok_iff.mpr first) (bind_of_ok (channelFrom_eq_ok_iff.mpr named) rfl)
  | part verb first named =>
      rw [verb]
      exact bind_of_ok (textAt_eq_ok_iff.mpr first) (bind_of_ok (channelFrom_eq_ok_iff.mpr named) rfl)
  | mode verb first named =>
      rw [verb]
      exact bind_of_ok (paramAt_eq_ok_iff.mpr first) (bind_of_ok (channelFrom_eq_ok_iff.mpr named) rfl)
  | topic verb first named =>
      rw [verb]
      exact bind_of_ok (paramAt_eq_ok_iff.mpr first) (bind_of_ok (channelFrom_eq_ok_iff.mpr named) rfl)
  | nick verb first =>
      rw [verb]
      exact bind_of_ok (textAt_eq_ok_iff.mpr first) rfl
  | invite verb first named second located =>
      rw [verb]
      refine bind_of_ok (paramAt_eq_ok_iff.mpr first) (bind_of_ok (userFrom_eq_ok_iff.mpr named) ?_)
      refine bind_of_ok (paramAt_eq_ok_iff.mpr second) ?_
      exact bind_of_ok (channelFrom_eq_ok_iff.mpr located) rfl
  | @kick places names channels users verb first located second named =>
      have hchannels : (commaList places).mapM (m.channelFrom 0) = .ok channels :=
        mapM_eq_ok_iff.mpr (located.imp fun _ _ => channelFrom_eq_ok_iff.mpr)
      have husers : (commaList names).mapM (m.userFrom 1) = .ok users :=
        mapM_eq_ok_iff.mpr (named.imp fun _ _ => userFrom_eq_ok_iff.mpr)
      rw [verb]
      refine bind_of_ok (paramAt_eq_ok_iff.mpr first) (bind_of_ok hchannels ?_)
      exact bind_of_ok (paramAt_eq_ok_iff.mpr second) (bind_of_ok husers rfl)
  | ping verb last =>
      rw [verb]
      exact bind_of_ok (trailingText_eq_ok_iff.mpr last) rfl
  | pong verb last =>
      rw [verb]
      exact bind_of_ok (trailingText_eq_ok_iff.mpr last) rfl
  | error verb last =>
      rw [verb]
      exact bind_of_ok (trailingText_eq_ok_iff.mpr last) rfl
  | quit verb last =>
      rw [verb]
      exact bind_of_ok (trailingText_eq_ok_iff.mpr last) rfl
  | numeric verb => rw [verb]
  | other verb => rw [verb]

/-- **The fields of a message are those that it means.** -/
theorem ofMessage_eq_ok_iff : Content.ofMessage m = .ok content ↔ m.Means content :=
  ⟨means_of_ofMessage, ofMessage_of_means⟩

end Message

end RelayChat
