import RelayChat.Client.ConfigJson
import RelayChat.Proofs.Capability
import RelayChat.Proofs.Command.Json

/-!
# Configurations are read back from their JSON form

The fields are looked up one by one, and one that is not there is its default.  So a member
that reads as the default of its field is not missed (`Json.fieldOr?_others`), whichever
others are dropped with it, and nothing has to be said of subsets of the ten.

Nine of the ten fields are read back whatever they hold.  Capabilities are the exception: a
configuration may hold any vendor and any name, but they are written as texts and each text
must read as a capability.  Some texts read as none, and then nothing is read; some read as
another one, as that of the name `vendor/name` without a vendor does, and then nothing but the
capabilities is different (`ClientConfig.ofJson?_without`).  So a configuration is read back
exactly if its capabilities are read back from their own texts.
-/

namespace RelayChat

/-! ### Objects with members dropped -/

namespace Json

variable {α : Type} {members : List (String × Json)} {names : List String} {name : String}

/-- The members of other names. -/
def others (names : List String) (members : List (String × Json)) : List (String × Json) :=
  members.filter fun member => member.1 ∉ names

/-- An object without the members of those names.  Nothing else has members. -/
def without (names : List String) : Json → Json
  | .object members => .object (others names members)
  | j => j

/-- With no name to drop, an object is kept whole. -/
theorem without_nil (j : Json) : j.without [] = j := by
  cases j <;> simp [without, others]

/-- A member of another name is found as before. -/
theorem lookup_others :
    (others names members).lookup name = if name ∈ names then none else members.lookup name := by
  induction members with
  | nil => simp [others]
  | cons member members ih =>
      obtain ⟨other, j⟩ := member
      rw [others, List.filter_cons, ← others]
      rcases eq_or_ne name other with rfl | hne
      · by_cases hdrop : name ∈ names <;> simp [hdrop, ih]
      · have hmiss : (name == other) = false := beq_eq_false_iff_ne.mpr hne
        by_cases hdrop : other ∈ names <;> simp [hdrop, ih, List.lookup_cons, hmiss]

/-- **A member that reads as its default is not missed.** -/
theorem fieldOr?_others {read : Json → Option α} {absent : α} {j : Json}
    (hmember : members.lookup name = some j) (hdefault : name ∈ names → read j = some absent) :
    fieldOr? (others names members) name read absent = read j := by
  rw [fieldOr?, lookup_others, hmember]
  by_cases hdrop : name ∈ names
  · simp [hdrop, hdefault hdrop]
  · simp [hdrop]

end Json

/-! ### The parts of a configuration -/

theorem Endpoint.portOfJson?_nat (port : UInt16) :
    portOfJson? (.nat port.toNat) = some port := by
  have hle : port.toNat ≤ UInt16.size - 1 := Nat.le_pred_of_lt port.toNat_lt
  rw [portOfJson?, Json.natUpTo?_nat hle, Option.map_some, UInt16.ofNat_toNat]

/-- An endpoint is read back whatever it holds. -/
theorem Endpoint.ofJson?_toJson (endpoint : Endpoint) :
    Endpoint.ofJson? endpoint.toJson = some endpoint := by
  cases endpoint with
  | tcp host port tls =>
      simp [toJson, ofJson?, Json.choice?_choice, Json.fields?, Json.field?, List.lookup_cons,
        Json.text?, Json.bool?, portOfJson?_nat]
  | webSocket url => rfl

theorem Endpoint.orNull?_toJson (endpoint : Option Endpoint) :
    Json.orNull? Endpoint.ofJson? ((endpoint.map toJson).getD .null) = some endpoint :=
  Json.orNull?_map (fun endpoint => by cases endpoint <;> simp [toJson, Json.choice])
    Endpoint.ofJson?_toJson endpoint

theorem ErrorPolicy.ofJson?_name (policy : ErrorPolicy) :
    ErrorPolicy.ofJson? (.text policy.name) = some policy := by
  cases policy <;> rfl

/-- A capability is read back from the text in JSON exactly if it is from its text. -/
theorem Capability.ofJson?_text_iff {c : Capability} :
    Capability.ofJson? (.text c.text) = some c ↔ parse c.text = .ok c := by
  rw [parse_eq_ok_iff, ← ofChars?_eq_some_iff]
  rfl

namespace ClientConfig

theorem capacityOfJson?_nat (capacity : UInt64) :
    capacityOfJson? (.nat capacity.toNat) = some capacity := by
  have hle : capacity.toNat ≤ UInt64.size - 1 := Nat.le_pred_of_lt capacity.toNat_lt
  rw [capacityOfJson?, Json.natUpTo?_nat hle, Option.map_some, UInt64.ofNat_toNat]

/-! ### The whole object -/

variable {c : ClientConfig} {dropped : List String}

/-- The field of that name holds its default.  A name that is no field's has nothing to hold. -/
def HoldsDefault (c : ClientConfig) : String → Prop
  | "nickname" => c.registration.nickname = ""
  | "user" => c.registration.user = none
  | "realname" => c.registration.realname = none
  | "password" => c.registration.password = none
  | "capabilities" => c.registration.capabilities = []
  | "invisible" => c.registration.invisible = false
  | "receive_wallops" => c.registration.wallops = false
  | "endpoint" => c.endpoint = none
  | "parse_errors" => c.errors = .emit
  | "inbound_capacity" => c.capacity = defaultCapacity
  | _ => True

/-- The configuration with other capabilities. -/
def withCapabilities (c : ClientConfig) (capabilities : List Capability) : ClientConfig :=
  { c with registration := { c.registration with capabilities } }

/-- The fields as they are written. -/
def fields (c : ClientConfig) : List (String × Json) :=
  c.toJson.members?.getD []

/-- A field is read back from the object without some defaults, whether it is one or not. -/
theorem fieldOr?_fields {α : Type} {name : String} {read : Json → Option α} {value absent : α}
    {j : Json} (h : ∀ name ∈ dropped, c.HoldsDefault name) (hmember : c.fields.lookup name = some j)
    (hread : read j = some value) (hdefault : c.HoldsDefault name → value = absent) :
    Json.fieldOr? (Json.others dropped c.fields) name read absent = some value := by
  rw [← hread]
  refine Json.fieldOr?_others hmember fun hdrop => ?_
  rw [hread, hdefault (h name hdrop)]

/-- **What is read of the object without some defaults** is the configuration, but for its
capabilities, which are what their texts read as. -/
theorem ofJson?_without (h : ∀ name ∈ dropped, c.HoldsDefault name) :
    ofJson? (c.toJson.without dropped) =
      (Json.list? Capability.ofJson?
        (.texts (c.registration.capabilities.map Capability.text))).map c.withCapabilities := by
  have hnickname : Json.fieldOr? (Json.others dropped c.fields) "nickname" Json.text? "" =
      some c.registration.nickname :=
    fieldOr?_fields h rfl rfl id
  have huser : Json.fieldOr? (Json.others dropped c.fields) "user" (Json.orNull? Json.text?) none =
      some c.registration.user :=
    fieldOr?_fields h rfl (Json.orNull?_textOrNull _) id
  have hrealname : Json.fieldOr? (Json.others dropped c.fields) "realname"
      (Json.orNull? Json.text?) none = some c.registration.realname :=
    fieldOr?_fields h rfl (Json.orNull?_textOrNull _) id
  have hpassword : Json.fieldOr? (Json.others dropped c.fields) "password"
      (Json.orNull? Json.text?) none = some c.registration.password :=
    fieldOr?_fields h rfl (Json.orNull?_textOrNull _) id
  have hinvisible : Json.fieldOr? (Json.others dropped c.fields) "invisible" Json.bool? false =
      some c.registration.invisible :=
    fieldOr?_fields h rfl rfl id
  have hwallops : Json.fieldOr? (Json.others dropped c.fields) "receive_wallops" Json.bool? false =
      some c.registration.wallops :=
    fieldOr?_fields h rfl rfl id
  have hendpoint : Json.fieldOr? (Json.others dropped c.fields) "endpoint"
      (Json.orNull? Endpoint.ofJson?) none = some c.endpoint :=
    fieldOr?_fields h rfl (Endpoint.orNull?_toJson c.endpoint) id
  have herrors : Json.fieldOr? (Json.others dropped c.fields) "parse_errors"
      ErrorPolicy.ofJson? .emit = some c.errors :=
    fieldOr?_fields h rfl c.errors.ofJson?_name id
  have hcapacity : Json.fieldOr? (Json.others dropped c.fields) "inbound_capacity"
      capacityOfJson? defaultCapacity = some c.capacity :=
    fieldOr?_fields h rfl (capacityOfJson?_nat c.capacity) id
  -- The one field of which it is left open what is read.
  have hcapabilities : Json.fieldOr? (Json.others dropped c.fields) "capabilities"
      (Json.list? Capability.ofJson?) [] = Json.list? Capability.ofJson?
        (.texts (c.registration.capabilities.map Capability.text)) := by
    refine Json.fieldOr?_others rfl fun hdrop => ?_
    rw [show c.registration.capabilities = [] from h _ hdrop]
    rfl
  have hmembers : (c.toJson.without dropped).members? = some (Json.others dropped c.fields) := rfl
  rw [ofJson?, hmembers]
  simp only [Option.bind_eq_bind, Option.bind_some, hnickname, huser, hrealname, hpassword,
    hcapabilities, hinvisible, hwallops, hendpoint, herrors, hcapacity]
  cases Json.list? Capability.ofJson?
    (.texts (c.registration.capabilities.map Capability.text)) <;> rfl

/-- Other capabilities make another configuration. -/
theorem withCapabilities_eq_self_iff {capabilities : List Capability} :
    c.withCapabilities capabilities = c ↔ capabilities = c.registration.capabilities := by
  refine ⟨fun h => ?_, fun h => by rw [h]; rfl⟩
  rw [← h]
  rfl

/-- The capabilities decide whether the configuration is read back, with all fields or without
some defaults. -/
theorem ofJson?_without_eq_self_iff (h : ∀ name ∈ dropped, c.HoldsDefault name) :
    ofJson? (c.toJson.without dropped) = some c ↔
      ∀ capability ∈ c.registration.capabilities,
        Capability.parse capability.text = .ok capability := by
  rw [ofJson?_without h, Option.map_eq_some_iff]
  simp only [withCapabilities_eq_self_iff, exists_eq_right, Json.texts, List.map_map]
  exact Json.list?_map_iff.trans (forall₂_congr fun _ _ => Capability.ofJson?_text_iff)

/-- **A configuration is read back from its JSON form** exactly if each of its capabilities is
read back from its text, and then it is also without any of the fields that hold their
defaults. -/
theorem read_back_from_json (c : ClientConfig) :
    (ofJson? c.toJson = some c ↔
      ∀ capability ∈ c.registration.capabilities,
        Capability.parse capability.text = .ok capability) ∧
    ((∀ capability ∈ c.registration.capabilities,
        Capability.parse capability.text = .ok capability) →
      ∀ dropped : List String, (∀ name ∈ dropped, c.HoldsDefault name) →
        ofJson? (c.toJson.without dropped) = some c) := by
  refine ⟨?_, fun hcapabilities dropped h => (ofJson?_without_eq_self_iff h).mpr hcapabilities⟩
  have hwhole := ofJson?_without_eq_self_iff (c := c) (List.forall_mem_nil c.HoldsDefault)
  rwa [Json.without_nil] at hwhole

/-- Reading Twitch chat needs a nickname, a password, three capabilities of a vendor and an
endpoint, and the other six fields can be left out. -/
theorem twitch_read_back :
    ofJson? (twitch.toJson.without
      ["user", "realname", "invisible", "receive_wallops", "parse_errors", "inbound_capacity"]) =
        some twitch :=
  (read_back_from_json twitch).2 (by decide) _ (by simp [HoldsDefault, twitch])

-- Two parts that are no capability make a text that is one, and its name is another.
example :
    ofJson? (toJson { registration := { nickname := "Al", capabilities := [⟨none, "a.b/c"⟩] } }) =
      some { registration := { nickname := "Al", capabilities := [⟨some "a.b", "c"⟩] } } := by
  decide

end ClientConfig

end RelayChat
