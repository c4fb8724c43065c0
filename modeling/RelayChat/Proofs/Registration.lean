import RelayChat.Proofs.Capability
import RelayChat.Proofs.Handshake
import RelayChat.Proofs.Command.Said

/-!
# What the server reads of a handshake

The lines of a handshake are made of configured texts, and nothing is quoted or checked on the
way.  `Handshake.intended` has the messages that the lines are meant to be.  Whether they are
read as these depends on the texts: validation asks for a nickname and no more, and a nickname
with a space in it is read as two parameters.

`Registration.Fits` says which texts do.  What stands as a parameter must be one; the real name
stands last, behind a colon, and may be anything without a line break.  Nothing is asked of the
capabilities, which have a grammar of their own and are checked when they are added
(`Registration.Checked`).
-/

namespace RelayChat

open Grammar

/-! ### Registrations -/

namespace Registration

variable {r next : Registration} {names : List String}

/-- All capabilities were added as texts, in any number of calls; the rest is as it may be. -/
inductive Checked : Registration → Prop
  | none {r : Registration} (empty : r.capabilities = []) : Checked r
  | add {r next : Registration} {names : List String} (before : Checked r)
      (added : r.withCapabilities names = .ok next) : Checked next
  | other {r next : Registration} (before : Checked r)
      (same : next.capabilities = r.capabilities) : Checked next

/-- The configured texts can stand where the handshake puts them. -/
structure Fits (r : Registration) : Prop where
  /-- The nickname is a parameter. -/
  nickname : IsMiddle r.nickname.toList
  /-- The user name is a parameter. -/
  userName : IsMiddle r.userName.toList
  /-- The password is a parameter, if there is one. -/
  password : ∀ password ∈ r.password, IsMiddle password.toList
  /-- The real name has no line break. -/
  realName : IsUnbroken r.realName.toList

theorem parsed_of_forall₂ {capabilities : List Capability}
    (h : List.Forall₂ (fun name c => Capability.parse name = .ok c) names capabilities) :
    ∀ c ∈ capabilities, ∃ name, Capability.parse name = .ok c := by
  induction h with
  | nil => exact fun c hc => absurd hc List.not_mem_nil
  | cons hname _ ih => exact List.forall_mem_cons.mpr ⟨⟨_, hname⟩, ih⟩

/-- What is added has been read, and comes after what there was. -/
theorem capabilities_of_withCapabilities (h : r.withCapabilities names = .ok next) :
    ∃ added, (∀ c ∈ added, ∃ name, Capability.parse name = .ok c) ∧
      next.capabilities = r.capabilities ++ added := by
  unfold withCapabilities at h
  split at h
  · next added hadded =>
    obtain rfl := Except.ok.inj h
    exact ⟨added, parsed_of_forall₂ (Message.mapM_eq_ok_iff.mp hadded), rfl⟩
  · cases h

/-- **Checked capabilities have been read.** -/
theorem Checked.parsed (h : r.Checked) :
    ∀ c ∈ r.capabilities, ∃ name, Capability.parse name = .ok c := by
  induction h with
  | none empty =>
      rw [empty]
      exact fun c hc => absurd hc List.not_mem_nil
  | add before added ih =>
      obtain ⟨more, hread, hnext⟩ := capabilities_of_withCapabilities added
      rw [hnext]
      exact List.forall_mem_append.mpr ⟨ih, hread⟩
  | other before same ih =>
      rw [same]
      exact ih

/-- What fits has a nickname. -/
theorem Fits.validate (h : r.Fits) : r.validate = .ok () := by
  rw [Registration.validate, if_neg]
  intro hempty
  exact h.nickname.1 (by simpa using hempty)

/-- There are four requests of modes. -/
theorem modeBits_mem (r : Registration) : r.modeBits ∈ [0, 4, 8, 12] := by
  unfold modeBits
  split <;> split <;> decide

/-- A request of modes is written in digits, and so it can be a parameter. -/
theorem isMiddle_modeBits (r : Registration) : IsMiddle (toString r.modeBits).toList := by
  have hall : ∀ bits ∈ [0, 4, 8, 12], IsMiddle (toString bits).toList := by decide
  exact hall _ r.modeBits_mem

end Registration

/-! ### The handshake -/

namespace Handshake

variable {r : Registration}

/-- The request for a capability. -/
def capabilityRequest (c : Capability) : Message :=
  ⟨∅, none, "CAP", ["REQ"], some c.text⟩

/-- The message that gives the password. -/
def passwordMessage (password : String) : Message :=
  ⟨∅, none, "PASS", [password], none⟩

/-- The message that gives the nickname. -/
def nickMessage (r : Registration) : Message :=
  ⟨∅, none, "NICK", [r.nickname], none⟩

/-- The message that gives the user name, the mode bits and the real name. -/
def userMessage (r : Registration) : Message :=
  ⟨∅, none, "USER", [r.userName, toString r.modeBits, "*"], some r.realName⟩

/-- **The messages that a handshake is meant to be**, in order. -/
def intended (r : Registration) : List Message :=
  r.capabilities.map capabilityRequest ++
    (r.password.toList.map passwordMessage ++ [nickMessage r, userMessage r])

/-- The lines that are prepared are the texts of the messages that are meant. -/
theorem allLines_eq (r : Registration) : allLines r = (intended r).map Message.text := by
  have hcapabilities : (if r.capabilities.isEmpty then [] else
      [r.capabilities.map capabilityLine]).flatten = r.capabilities.map capabilityLine := by
    cases r.capabilities <;> simp
  have hpassword : (r.password.map fun password => [passwordLine password]).toList.flatten =
      r.password.toList.map passwordLine := by
    cases r.password <;> rfl
  calc allLines r = (batches r).flatten := by
        rw [← map_lines_plan, allLines, plan, List.flatMap_def]
    _ = (intended r).map Message.text := by
        rw [batches, List.flatten_append, List.flatten_append, hcapabilities, hpassword, intended,
          List.map_append, List.map_append, List.map_map, List.map_map, List.append_assoc]
        rfl

/-- Every line that the machine says, at whatever stage it is, is that of an intended message. -/
theorem mem_intended_of_advance {stage : Stage} {step : Step} {next : Machine}
    (h : Machine.advance ⟨r, stage⟩ = (some step, next)) :
    ∀ line ∈ step.lines, ∃ m ∈ intended r, line = m.text := by
  have hsteps : step ∈ plan r := by
    have hleft : step ∈ Machine.steps ⟨r, stage⟩ := by
      rw [Machine.steps_of_advance_some h]
      exact List.mem_cons_self
    obtain ⟨reached, hreached, hstep⟩ := List.mem_filterMap.mp hleft
    refine List.mem_filterMap.mpr ⟨reached, ?_, hstep⟩
    have hlater : ∀ reached ∈ stage.later, reached ∈ Stage.idle.later := by
      cases stage <;> decide
    exact hlater reached hreached
  intro line hline
  have hall : line ∈ allLines r := List.mem_flatMap.mpr ⟨step, hsteps, hline⟩
  rw [allLines_eq] at hall
  obtain ⟨m, hm, rfl⟩ := List.mem_map.mp hall
  exact ⟨m, hm, rfl⟩

/-! ### Which of them come back -/

/-- A request for a capability that was checked is always said. -/
theorem parse_capabilityRequest (hcapabilities : r.Checked) :
    ∀ c ∈ r.capabilities,
      Message.parse (capabilityRequest c).text = .ok (capabilityRequest c) := by
  intro c hc
  obtain ⟨name, hname⟩ := hcapabilities.parsed c hc
  rw [capabilityRequest, Message.parse_text_plain_iff (by decide) (by simp)]
  have hrequest : IsMiddle "REQ".toList := by decide
  refine ⟨fun param hparam => ?_, fun text htext => ?_⟩
  · rw [List.mem_singleton.mp hparam]
    exact hrequest
  · rw [← Option.mem_some.mp htext]
    exact Capability.isUnbroken_of_parse hname

/-- A password is said exactly if it can be a parameter. -/
theorem parse_passwordMessage_iff {password : String} :
    Message.parse (passwordMessage password).text = .ok (passwordMessage password) ↔
      IsMiddle password.toList := by
  rw [passwordMessage, Message.parse_text_plain_iff (by decide) (by simp)]
  simp

/-- A nickname is said exactly if it can be a parameter. -/
theorem parse_nickMessage_iff :
    Message.parse (nickMessage r).text = .ok (nickMessage r) ↔ IsMiddle r.nickname.toList := by
  rw [nickMessage, Message.parse_text_plain_iff (by decide) (by simp)]
  simp

/-- A user is said exactly if the user name can be a parameter and the real name has no line breaks.
-/
theorem parse_userMessage_iff :
    Message.parse (userMessage r).text = .ok (userMessage r) ↔
      IsMiddle r.userName.toList ∧ IsUnbroken r.realName.toList := by
  have hstar : IsMiddle "*".toList := by decide
  rw [userMessage, Message.parse_text_plain_iff (by decide) (by simp)]
  simp only [List.forall_mem_cons, List.not_mem_nil, false_implies, implies_true,
    r.isMiddle_modeBits, hstar, and_true, Option.mem_some_iff, forall_eq']

/-- The messages that are meant, one kind after the other. -/
theorem forall_mem_intended {p : Message → Prop} :
    (∀ m ∈ intended r, p m) ↔
      (∀ c ∈ r.capabilities, p (capabilityRequest c)) ∧
        (∀ password ∈ r.password, p (passwordMessage password)) ∧
          p (nickMessage r) ∧ p (userMessage r) := by
  rw [intended, List.forall_mem_append, List.forall_mem_append, List.forall_mem_map,
    List.forall_mem_map, List.forall_mem_cons, List.forall_mem_singleton]
  simp only [Option.mem_toList, Option.mem_def]

/-- **All of them come back** exactly if the configured texts fit. -/
theorem parse_intended_iff (hcapabilities : r.Checked) :
    (∀ m ∈ intended r, Message.parse m.text = .ok m) ↔ r.Fits := by
  rw [forall_mem_intended, parse_nickMessage_iff, parse_userMessage_iff]
  simp only [parse_passwordMessage_iff]
  constructor
  · rintro ⟨-, hpassword, hnickname, huser, hreal⟩
    exact ⟨hnickname, huser, hpassword, hreal⟩
  · rintro ⟨hnickname, huser, hpassword, hreal⟩
    exact ⟨parse_capabilityRequest hcapabilities, hpassword, hnickname, huser, hreal⟩

theorem tags_of_mem_intended : ∀ m ∈ intended r, m.tags = ∅ :=
  forall_mem_intended.mpr ⟨fun _ _ => rfl, fun _ _ => rfl, rfl, rfl⟩

/-- **What fits is sent line by line**: the bytes that are written have the lines of the handshake
and no others. -/
theorem wholeLines_sent_allLines (hcapabilities : r.Checked) (hfits : r.Fits) :
    (Framer.wholeLines (Framer.sent (allLines r))).map Framer.lineText = allLines r ∧
      Framer.unfinished (Framer.sent (allLines r)) = [] := by
  have hformed : ∀ m ∈ intended r, m.WellFormed := fun m hm =>
    Message.wellFormed_of_parse ((parse_intended_iff hcapabilities).mpr hfits m hm)
  have hfree : ∀ line ∈ allLines r, '\n' ∉ line.toList := by
    rw [allLines_eq, List.forall_mem_map]
    exact fun m hm => (hformed m hm).feed_not_mem_text (tags_of_mem_intended m hm)
  refine ⟨?_, Framer.unfinished_sent hfree⟩
  rw [Framer.wholeLines_sent hfree, allLines_eq, List.map_map, List.map_map]
  exact List.map_congr_left fun m hm => (hformed m hm).lineText_encode

/-- **A handshake says what is configured**, as far as the configured texts fit.  Every line is
that of an intended message.  A request for a capability is always read as what is meant; each of
the other lines is exactly if the texts in it can stand where they do.  If all of them can, the
registration is valid, every line is read as it is meant, and nothing in it makes another line. -/
theorem handshake_says_what_fits (hcapabilities : r.Checked) :
    (∀ stage step next, Machine.advance ⟨r, stage⟩ = (some step, next) →
        ∀ line ∈ step.lines, ∃ m ∈ intended r, line = m.text) ∧
      allLines r = (intended r).map Message.text ∧
      (∀ c ∈ r.capabilities,
        Message.parse (capabilityRequest c).text = .ok (capabilityRequest c)) ∧
      (∀ password ∈ r.password,
        (Message.parse (passwordMessage password).text = .ok (passwordMessage password) ↔
          IsMiddle password.toList)) ∧
      (Message.parse (nickMessage r).text = .ok (nickMessage r) ↔ IsMiddle r.nickname.toList) ∧
      (Message.parse (userMessage r).text = .ok (userMessage r) ↔
        IsMiddle r.userName.toList ∧ IsUnbroken r.realName.toList) ∧
      (r.Fits → r.validate = .ok () ∧
        (allLines r).map Message.parse = (intended r).map .ok ∧
          (Framer.wholeLines (Framer.sent (allLines r))).map Framer.lineText = allLines r ∧
            Framer.unfinished (Framer.sent (allLines r)) = []) := by
  refine ⟨fun stage step next h => mem_intended_of_advance h, allLines_eq r,
    parse_capabilityRequest hcapabilities, fun password _ => parse_passwordMessage_iff,
    parse_nickMessage_iff, parse_userMessage_iff, fun hfits => ⟨hfits.validate, ?_,
      wholeLines_sent_allLines hcapabilities hfits⟩⟩
  rw [allLines_eq, List.map_map]
  exact List.map_congr_left ((parse_intended_iff hcapabilities).mpr hfits)

/-- A password with a colon inside and a real name of two words fit. -/
theorem spaced_real_name_is_said :
    let r : Registration :=
      { nickname := "n", realname := some "R N", password := some "p:w",
        capabilities := [⟨some "a.b", "c"⟩], wallops := true }
    ((Registration.ofNickname "n").withCapabilities ["a.b/c"]).map (·.capabilities) =
        .ok r.capabilities ∧
      (allLines r).map Message.parse =
        [.ok ⟨∅, none, "CAP", ["REQ"], some "a.b/c"⟩, .ok ⟨∅, none, "PASS", ["p:w"], none⟩,
          .ok ⟨∅, none, "NICK", ["n"], none⟩,
          .ok ⟨∅, none, "USER", ["n", "4", "*"], some "R N"⟩] := by
  intro r
  have hread : (Registration.ofNickname "n").withCapabilities ["a.b/c"] =
      .ok { Registration.ofNickname "n" with capabilities := r.capabilities } := rfl
  have hchecked : r.Checked := .other (.add (.none rfl) hread) rfl
  have hfits : r.Fits := ⟨by decide, by decide, by decide, by decide⟩
  obtain ⟨-, -, -, -, -, -, hsaid⟩ := handshake_says_what_fits hchecked
  obtain ⟨-, hparsed, -⟩ := hsaid hfits
  refine ⟨by rw [hread]; rfl, hparsed.trans ?_⟩
  decide

/-- **Validation does not see to it.**  With a space in it, a nickname is read as two parameters,
and with a line feed it is sent as two lines. -/
theorem spaced_nickname_is_two_params :
    let r := Registration.ofNickname "a b"
    let broken := Registration.ofNickname "a\nQUIT"
    (r.validate = .ok () ∧ r.capabilities = [] ∧ nickLine r ∈ allLines r ∧
        Message.parse (nickLine r) = .ok ⟨∅, none, "NICK", ["a", "b"], none⟩ ∧
        Message.parse (nickLine r) ≠ .ok (nickMessage r)) ∧
      broken.validate = .ok () ∧ nickLine broken ∈ allLines broken ∧
        (Framer.wholeLines (Framer.encode (nickLine broken).toList)).length = 2 := by
  decide +kernel

end Handshake

end RelayChat
