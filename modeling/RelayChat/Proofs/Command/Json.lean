import Mathlib.Algebra.Group.Nat.Defs
import Mathlib.Data.List.Induction
import RelayChat.Command.Json
import RelayChat.Proofs.Command.Wire

/-!
# Commands are read back from their JSON form

What a record is written as is read back field by field, and for every shape that is written
there is one law that says so; a list is read back because its items are (`Json.list?_map`).
The laws need nothing of the values, with two exceptions.  A numeric reply is read back if its
code is not too large, and the code of three digits is not (`Verb.number_lt`).  A message is
written if it has no tags: the keys of its tags are records, and JSON has only texts for keys.
So tags, which most lines of some networks have, are what stands between a command and its JSON
form, and nothing else does.
-/

namespace RelayChat

/-! ### Values -/

namespace Json

theorem orNull?_textOrNull (s : Option String) : orNull? text? (textOrNull s) = some s := by
  cases s <;> rfl

/-- What may be missing is read back if what is there is and is not null. -/
theorem orNull?_map {α : Type} {write : α → Json} {read : Json → Option α}
    (hnull : ∀ a, write a ≠ .null) (h : ∀ a, read (write a) = some a) (a? : Option α) :
    orNull? read ((a?.map write).getD .null) = some a? := by
  cases a? with
  | none => rfl
  | some a =>
      have hsome : orNull? read (write a) = (read (write a)).map some := by
        rw [orNull?]
        exact hnull a
      rw [Option.map_some, Option.getD_some, hsome, h, Option.map_some]

/-- **A list is read back** exactly if its items are. -/
theorem list?_map_iff {α : Type} {write : α → Json} {read : Json → Option α} {as : List α} :
    list? read (.array (as.map write)) = some as ↔ ∀ a ∈ as, read (write a) = some a := by
  rw [list?, items?, Option.bind_some]
  induction as with
  | nil => simp
  | cons a as ih =>
      rw [List.forall_mem_cons, ← ih, List.map_cons, List.mapM_cons]
      cases read (write a) <;> cases (as.map write).mapM read <;> simp

theorem list?_map {α : Type} {write : α → Json} {read : Json → Option α}
    (h : ∀ a, read (write a) = some a) (as : List α) :
    list? read (.array (as.map write)) = some as :=
  list?_map_iff.mpr fun a _ => h a

/-- Texts are read back whatever they hold. -/
theorem list?_texts (ss : List String) : list? text? (texts ss) = some ss := by
  have htext : ∀ s, text? (.text s) = some s := fun _ => rfl
  exact list?_map htext ss

/-- A number is read back if it is not above the bound. -/
theorem natUpTo?_nat {n max : Nat} (h : n ≤ max) : natUpTo? max (nat n) = some n :=
  if_pos h

theorem choice?_choice (name : String) (fields : List (String × Json)) :
    choice? (choice name fields) = some (name, .object fields) := rfl

end Json

/-! ### The parts of a command -/

/-- A source is read back, whichever parts of the mask are missing. -/
theorem Source.ofJson?_toJson (s : Source) : Source.ofJson? s.toJson = some s := by
  cases s with
  | server name => rfl
  | nickname nick user host => cases user <;> cases host <;> rfl

theorem User.ofJson?_toJson (u : User) : User.ofJson? u.toJson = some u := by
  obtain ⟨nickname, user, host⟩ := u
  cases user <;> cases host <;> rfl

theorem Marker.ofJson?_toJson (marker : Marker) : Marker.ofJson? marker.toJson = some marker := by
  cases marker <;> rfl

theorem Channel.ofJson?_toJson (c : Channel) : Channel.ofJson? c.toJson = some c := by
  obtain ⟨marker, name⟩ := c
  simp [Channel.ofJson?, Channel.toJson, Json.members?, Json.field?, List.lookup_cons,
    Marker.ofJson?_toJson, Json.text?]

/-- A target is read back under the name of what it is. -/
theorem Target.ofJson?_toJson (t : Target) : Target.ofJson? t.toJson = some t := by
  cases t with
  | channel c => exact congrArg (Option.map Target.channel) c.ofJson?_toJson
  | user u => exact congrArg (Option.map Target.user) u.ofJson?_toJson

theorem Origin.ofJson?_toJson (o : Origin) : Origin.ofJson? o.toJson = some o := by
  cases o
  rfl

/-! ### Messages -/

namespace Message

variable {m : Message}

/-- **A message without tags is read back.** -/
theorem exists_json (h : m.tags = ∅) : ∃ j, m.toJson = .ok j ∧ Message.ofJson? j = some m := by
  obtain ⟨tags, source, verb, params, trailing⟩ := m
  obtain rfl : tags = ∅ := h
  refine ⟨_, rfl, ?_⟩
  have hsource : Json.orNull? Source.ofJson? ((source.map Source.toJson).getD .null) =
      some source :=
    Json.orNull?_map (fun source => by cases source <;> simp [Source.toJson, Json.choice])
      Source.ofJson?_toJson source
  simp [Message.ofJson?, Json.members?, Json.field?, Json.fieldOr?, Json.optText?, List.lookup_cons,
    Tags.ofJson?, Json.text?, hsource, Json.list?_texts, Json.orNull?_textOrNull]

/-- A message with a tag is not written. -/
theorem toJson_of_tagged (h : m.tags ≠ ∅) : m.toJson = .error .keyNotText := by
  have hentries : m.tags.entries.isEmpty = false := by
    rw [Bool.eq_false_iff, ne_eq, List.isEmpty_iff]
    exact fun hnone => h (Tags.ext hnone)
  rw [Message.toJson, Tags.toJson, hentries]
  rfl

end Message

/-! ### Contents -/

namespace Content

variable {content : Content}

/-- The code of a numeric reply is one that is read back. -/
def IsSmall (content : Content) : Prop :=
  ∀ code, content = .numeric code → code ≤ 65535

/-- No command is written under the name of what is none. -/
theorem kind_ne_invalid (content : Content) : content.kind.name ≠ Kind.invalid.name := by
  cases content <;> simp [kind, Kind.name]

/-- **The fields of a command are read back**, whatever stands for its message. -/
theorem ofFields?_toFields (h : content.IsSmall) (message : Json) :
    ofFields? content.kind.name (("message", message) :: content.toFields) = some content := by
  have hchannels := Json.list?_map Channel.ofJson?_toJson
  have husers := Json.list?_map User.ofJson?_toJson
  cases content with
  | numeric code =>
      have hcode : Json.natUpTo? 65535 (Json.nat code) = some code := Json.natUpTo?_nat (h code rfl)
      simp [ofFields?, toFields, kind, Kind.name, Json.field?, List.lookup_cons, hcode]
  | _ =>
      simp [ofFields?, toFields, kind, Kind.name, Json.field?, Json.fieldOr?, Json.optText?,
        List.lookup_cons, Json.text?, Json.bool?, Json.list?_texts, Json.orNull?_textOrNull,
        Target.ofJson?_toJson, User.ofJson?_toJson, Channel.ofJson?_toJson,
        Origin.ofJson?_toJson, hchannels, husers]

end Content

namespace Verb

/-- Digits write a number with no more digits. -/
theorem number_lt {digits : List Char} (h : ∀ d ∈ digits, d.isDigit = true) :
    number digits < 10 ^ digits.length := by
  induction digits using List.reverseRecOn with
  | nil => decide
  | append_singleton digits d ih =>
      have hdigits := ih fun e he => h e (List.mem_append_left _ he)
      have hd : d.toNat - '0'.toNat ≤ 9 := by
        have hdigit := h d (by simp)
        rw [Char.isDigit, Bool.and_eq_true, decide_eq_true_eq, decide_eq_true_eq] at hdigit
        exact Nat.sub_le_of_le_add (UInt32.le_iff_toNat_le.mp hdigit.2)
      have hstep : number (digits ++ [d]) = 10 * number digits + (d.toNat - '0'.toNat) := by
        rw [number, List.foldl_append]
        rfl
      rw [hstep, List.length_append, List.length_singleton, pow_succ]
      omega

/-- The code of a numeric verb has three digits. -/
theorem code_lt {s : String} {code : Nat} (h : ofText s = .numeric code) : code < 1000 := by
  have hnamed : ∀ entry ∈ named, entry.2 ≠ .numeric code := by simp [named]
  unfold ofText at h
  split at h
  · next verb hlookup =>
    exact absurd h (hnamed _ (mem_named_of_lookup hlookup))
  · split at h
    · next hnumeric =>
      obtain rfl := Verb.numeric.inj h
      rw [Line.isNumeric, Bool.and_eq_true, beq_iff_eq, List.all_eq_true] at hnumeric
      have hlt := number_lt hnumeric.2
      rwa [hnumeric.1] at hlt
    · cases h

end Verb

/-- What a message says has a code of three digits, if it has one. -/
theorem Message.Means.isSmall {m : Message} {content : Content} (h : m.Means content) :
    content.IsSmall := by
  intro code hcode
  cases h with
  | numeric verb =>
      obtain rfl := Content.numeric.inj hcode
      have hlt := Verb.code_lt verb
      omega
  | privmsg verb first second =>
      rw [Content.ofBody] at hcode
      split at hcode <;> cases hcode
  | _ => cases hcode

/-! ### Received commands -/

namespace Received

variable {line : String} {c : Command}

/-- **A command without tags is read back**, if its code is one that is. -/
theorem exists_json (hcontent : c.content.IsSmall) (htags : c.message.tags = ∅) :
    ∃ j, (Received.command c).toJson = .ok j ∧ Received.ofJson? j = some (.command c) := by
  obtain ⟨message, content⟩ := c
  obtain ⟨record, hwritten, hread⟩ := Message.exists_json htags
  refine ⟨_, bind_of_ok hwritten rfl, ?_⟩
  have hmessage : Json.field? (("message", record) :: content.toFields) "message"
      Message.ofJson? = some message := hread
  rw [Received.ofJson?, Json.choice?_choice]
  simp only [Option.bind_eq_bind, Option.bind_some, Json.members?, hmessage,
    Content.ofFields?_toFields hcontent, if_neg content.kind_ne_invalid]
  rfl

/-- A command with a tag is not written. -/
theorem toJson_of_tagged (htags : c.message.tags ≠ ∅) :
    (Received.command c).toJson = .error .keyNotText := by
  rw [Received.toJson, Message.toJson_of_tagged htags]
  rfl

/-- **A received command survives its JSON form exactly if it has no tags.**  Without tags it is
written, and what is written is read back as the same command, part by part: the message, the
fields, and the masks of users in full.  With a tag it is not written at all. -/
theorem json_keeps_untagged_commands (h : ofLine line = .command c) :
    (c.message.tags = ∅ → ∃ j, (Received.command c).toJson = .ok j ∧
        Received.ofJson? j = some (.command c)) ∧
      (c.message.tags ≠ ∅ → (Received.command c).toJson = .error .keyNotText) :=
  ⟨exists_json (means_of_ofLine h).2.isSmall, toJson_of_tagged⟩

/-- A kick of two users from one channel, with masks in full, is read back. -/
theorem masked_kick_is_read_back :
    let line := ":op!o@h KICK #c a!u@h,b :out"
    ∃ c, ofLine line = .command c ∧
      c.content = .kick [⟨.network, "c"⟩] [⟨"a", some "u", some "h"⟩, ⟨"b", none, none⟩]
        (some "out") ∧
      ∃ j, (Received.command c).toJson = .ok j ∧ Received.ofJson? j = some (.command c) := by
  intro line
  let m : Message := ⟨∅, some (.nickname "op" (some "o") (some "h")), "KICK",
    ["#c", "a!u@h,b"], some "out"⟩
  let c : Command := ⟨m, .kick [⟨.network, "c"⟩] [⟨"a", some "u", some "h"⟩, ⟨"b", none, none⟩]
    (some "out")⟩
  have hread : ofLine line = .command c := by decide +kernel
  exact ⟨c, hread, rfl, (json_keeps_untagged_commands hread).1 rfl⟩

/-- **A tag is enough to keep a command out of JSON.** -/
theorem tagged_ping_has_no_json :
    (ofLine "@a=1 PING :x").isInvalid = false ∧ (ofLine "@a=1 PING :x").kind = .ping ∧
      ∀ j, (ofLine "@a=1 PING :x").toJson ≠ .ok j := by
  have hread : ofLine "@a=1 PING :x" =
      .command ⟨⟨(∅ : Tags).insert ⟨false, none, "a"⟩ (some "1"), none, "PING", [], some "x"⟩,
        .ping "x"⟩ := by decide +kernel
  rw [hread]
  refine ⟨rfl, rfl, fun j => ?_⟩
  rw [toJson_of_tagged (by decide)]
  exact nofun

end Received

end RelayChat
