import RequestGuard.Proofs.Json.Records
import RequestGuard.Wire

namespace RequestGuard

open Json

-- A type with the form in which its values are sent.
structure Wire (α : Type) where
  schema : Schema
  toJson : α → Json
  ofRecord : Json → Option α

namespace Wire

def serialize (wire : Wire α) (a : α) : Bytes :=
  bytesOf (wire.toJson a).written

def parse (wire : Wire α) (text : Bytes) : Except Json.Fault (Option α) :=
  (wire.schema.parse text).map wire.ofRecord

-- A value that is sent is what is received. What is received, from any text, is a value that is
-- sent as the same text however often it is received and sent again.
def RoundTrips (wire : Wire α) (Valid : α → Prop) : Prop :=
  (∀ a, Valid a → wire.parse (wire.serialize a) = .ok (some a)) ∧
  ∀ text found, wire.parse text = .ok found → ∃ a, found = some a ∧ Valid a ∧
    (wire.parse (wire.serialize a)).map (Option.map wire.serialize) = .ok (some (wire.serialize a))

-- What a type has to do for that: each value is read as a record, which gives the value, and
-- nothing else is read.
theorem roundTrips_of_record {wire : Wire α} {Valid : α → Prop} {record : α → Json}
    (hreads : ∀ a, Valid a → ReadsAs wire.schema.read (wire.toJson a) (record a))
    (hhands : ∀ value, Hands wire.schema.read value → ∃ a, Valid a ∧ value = record a)
    (hrecord : ∀ a, wire.ofRecord (record a) = some a) : wire.RoundTrips Valid := by
  have hparse : ∀ a, Valid a → wire.parse (wire.serialize a) = .ok (some a) := by
    intro a ha
    rw [parse, serialize, Schema.parse, complete_written (hreads a ha)]
    exact congrArg Except.ok (hrecord a)
  refine ⟨hparse, fun text found hfound => ?_⟩
  obtain ⟨value, hvalue, rfl⟩ := map_eq_ok hfound
  have hhanded : Hands wire.schema.read value := by
    unfold Schema.parse complete at hvalue
    split at hvalue
    · contradiction
    · next a rest hread =>
        split at hvalue
        · cases hvalue
          exact ⟨text, rest, hread⟩
        · contradiction
  obtain ⟨a, ha, rfl⟩ := hhands value hhanded
  refine ⟨a, hrecord a, ha, ?_⟩
  rw [hparse a ha]
  rfl

end Wire

theorem required {read : Reader Json} {value : Json} (h : Hands read value ∨ none = some value) :
    Hands read value :=
  h.resolve_right (by simp)

theorem exists_option {inner : Reader Json} {value : Json} {P : α → Prop} {f : α → Json}
    (h : Hands (readOptional inner) value ∨ some null = some value)
    (hinner : ∀ {v}, Hands inner v → ∃ a, P a ∧ v = f a) :
    ∃ o : Option α, (∀ a ∈ o, P a) ∧ value = ofOption f o := by
  have hcases : value = null ∨ Hands inner value :=
    h.elim hands_of_optional fun hnull => .inl (Option.some.inj hnull).symm
  rcases hcases with rfl | hhanded
  · exact ⟨none, fun a ha => absurd ha (by simp), rfl⟩
  · obtain ⟨a, ha, rfl⟩ := hinner hhanded
    exact ⟨some a, fun b hb => Option.some.inj hb ▸ ha, rfl⟩

theorem exists_text {value : Json} (h : Hands readTextField value) :
    ∃ s, True ∧ value = .text s :=
  (exists_of_hands_text h).imp fun _ hs => ⟨trivial, hs⟩

theorem exists_flag {value : Json} (h : Hands readFlagField value) :
    ∃ b, True ∧ value = .bool b :=
  (exists_of_hands_flag h).imp fun _ hb => ⟨trivial, hb⟩

namespace Claims

@[simp] theorem text?_text (s : String) : text? (.text s) = some s := rfl

@[simp] theorem text?_ofOption (o : Option String) : text? (.ofOption .text o) = o := by
  cases o <;> rfl

@[simp] theorem word?_nat (n : Nat) : word? (.nat n) = some n := by
  have hnatural : ¬(n : Int) < 0 := by omega
  simp [word?, Json.nat, hnatural]

@[simp] theorem word?_ofOption (o : Option Nat) : word? (.ofOption .nat o) = o := by
  cases o with
  | none => rfl
  | some n => exact word?_nat n

@[simp] theorem flag?_ofOption (o : Option Bool) : flag? (.ofOption .bool o) = o := by
  cases o <;> rfl

-- Times are words of 64 bits.
def InRange (claims : Claims) : Prop :=
  claims.expiry ≤ Numeral.maxWord ∧ ∀ n ∈ claims.issuedAt, n ≤ Numeral.maxWord

def wire : Wire Claims :=
  ⟨schema, toJson, ofRecord⟩

def record (claims : Claims) : Json :=
  .object [("sub", .text claims.subject), ("exp", .nat claims.expiry),
    ("iat", .ofOption .nat claims.issuedAt), ("jti", .ofOption .text claims.id),
    ("type", .ofOption .text claims.kind), ("active", .ofOption .bool claims.active)]

theorem readsAs_record {claims : Claims} (h : claims.InRange) :
    ReadsAs schema.read claims.toJson claims.record := by
  refine readRecord_shown _ (by decide) ?_
  simp only [List.cons_append, List.nil_append, List.append_assoc]
  rw [← List.append_nil (present "active" _)]
  exact .given (readsAs_text _) (.given (readsAs_word h.1)
    (.optional rfl refusesNull_word (fun n hn => readsAs_word (h.2 n hn))
      (.optional rfl refusesNull_text (fun s _ => readsAs_text s)
        (.optional rfl refusesNull_text (fun s _ => readsAs_text s)
          (.optional rfl refusesNull_flag (fun b _ => readsAs_flag b) .nil)))))

theorem exists_record {value : Json} (h : Hands schema.read value) :
    ∃ claims : Claims, claims.InRange ∧ value = claims.record := by
  obtain ⟨members, rfl, hmembers⟩ := filled_of_hands (by decide) h
  obtain ⟨_, _, rfl, hsubject, hmembers⟩ := filled_cons hmembers
  obtain ⟨_, _, rfl, hexpiry, hmembers⟩ := filled_cons hmembers
  obtain ⟨_, _, rfl, hissuedAt, hmembers⟩ := filled_cons hmembers
  obtain ⟨_, _, rfl, hid, hmembers⟩ := filled_cons hmembers
  obtain ⟨_, _, rfl, hkind, hmembers⟩ := filled_cons hmembers
  obtain ⟨_, _, rfl, hactive, hmembers⟩ := filled_cons hmembers
  cases hmembers
  obtain ⟨subject, rfl⟩ := exists_of_hands_text (required hsubject)
  obtain ⟨expiry, hfits, rfl⟩ := exists_of_hands_word (required hexpiry)
  obtain ⟨issuedAt, hissued, rfl⟩ := exists_option hissuedAt exists_of_hands_word
  obtain ⟨id, -, rfl⟩ := exists_option hid exists_text
  obtain ⟨kind, -, rfl⟩ := exists_option hkind exists_text
  obtain ⟨active, -, rfl⟩ := exists_option hactive exists_flag
  exact ⟨⟨subject, expiry, issuedAt, id, kind, active⟩, ⟨hfits, hissued⟩, rfl⟩

theorem ofRecord_record (claims : Claims) : ofRecord claims.record = some claims := by
  simp [ofRecord, record, get?, lookup]

theorem wire_roundTrips : wire.RoundTrips InRange :=
  Wire.roundTrips_of_record (fun _ => readsAs_record) (fun _ => exists_record) ofRecord_record

end Claims

namespace Envelope

-- The field errors are kept in the order of their names, each name once.
def Ordered (e : Envelope) : Prop :=
  e.details.Pairwise (·.1 < ·.1)

def wire : Wire Envelope :=
  ⟨schema, toJson, ofRecord⟩

def record (e : Envelope) : Json :=
  .object [("error", .object [("code", .text e.code), ("message", .ofOption .text e.message),
    ("user_message", .text e.userMessage), ("details", Failure.fieldsJson e.details),
    ("request_id", .text e.requestId), ("timestamp", .text e.timestamp),
    ("trace", .ofOption .text e.trace)])]

theorem readsAs_details {details : List (String × String)} (h : details.Pairwise (·.1 < ·.1)) :
    ReadsAs readTextsField (Failure.fieldsJson details) (Failure.fieldsJson details) := by
  refine readsAs_texts (List.pairwise_map.mpr h) fun member hmember => ?_
  obtain ⟨field, -, rfl⟩ := List.mem_map.mp hmember
  exact ⟨field.2, rfl⟩

theorem exists_map_text {members : List (String × Json)} (h : Texts members) :
    ∃ details : List (String × String),
      members = details.map fun field => (field.1, .text field.2) := by
  induction members with
  | nil => exact ⟨[], rfl⟩
  | cons member rest ih =>
      obtain ⟨⟨s, hs⟩, hrest⟩ := List.forall_mem_cons.mp h
      obtain ⟨details, rfl⟩ := ih hrest
      exact ⟨(member.1, s) :: details, by rw [List.map_cons, ← hs]⟩

theorem exists_details {value : Json} (h : Hands readTextsField value) :
    ∃ details : List (String × String), details.Pairwise (·.1 < ·.1) ∧
      value = Failure.fieldsJson details := by
  obtain ⟨members, rfl, hkeys, htexts⟩ := exists_of_hands_texts h
  obtain ⟨details, rfl⟩ := exists_map_text htexts
  rw [Ascending, List.pairwise_map] at hkeys
  exact ⟨details, hkeys, rfl⟩

theorem texts?_fieldsJson (details : List (String × String)) :
    texts? (Failure.fieldsJson details) = details := by
  simp [texts?, Failure.fieldsJson, List.filterMap_map, Function.comp_def]

theorem readsAs_record {e : Envelope} (h : e.Ordered) :
    ReadsAs schema.read e.toJson e.record := by
  refine readRecord_shown _ (by decide) (.given (readRecord_shown _ (by decide) ?_) .nil)
  simp only [List.cons_append, List.nil_append, List.append_assoc]
  rw [← List.append_nil (Claims.present "trace" _)]
  exact .given (readsAs_text _) (.optional rfl refusesNull_text (fun s _ => readsAs_text s)
    (.given (readsAs_text _) (.given (readsAs_details h) (.given (readsAs_text _)
      (.given (readsAs_text _)
        (.optional rfl refusesNull_text (fun s _ => readsAs_text s) .nil))))))

theorem exists_record {value : Json} (h : Hands schema.read value) :
    ∃ e : Envelope, e.Ordered ∧ value = e.record := by
  obtain ⟨outer, rfl, houter⟩ := filled_of_hands (by decide) h
  obtain ⟨_, _, rfl, hbody, houter⟩ := filled_cons houter
  cases houter
  obtain ⟨members, rfl, hmembers⟩ := filled_of_hands (by decide) (required hbody)
  obtain ⟨_, _, rfl, hcode, hmembers⟩ := filled_cons hmembers
  obtain ⟨_, _, rfl, hmessage, hmembers⟩ := filled_cons hmembers
  obtain ⟨_, _, rfl, huserMessage, hmembers⟩ := filled_cons hmembers
  obtain ⟨_, _, rfl, hdetails, hmembers⟩ := filled_cons hmembers
  obtain ⟨_, _, rfl, hrequestId, hmembers⟩ := filled_cons hmembers
  obtain ⟨_, _, rfl, htimestamp, hmembers⟩ := filled_cons hmembers
  obtain ⟨_, _, rfl, htrace, hmembers⟩ := filled_cons hmembers
  cases hmembers
  obtain ⟨code, rfl⟩ := exists_of_hands_text (required hcode)
  obtain ⟨message, -, rfl⟩ := exists_option hmessage exists_text
  obtain ⟨userMessage, rfl⟩ := exists_of_hands_text (required huserMessage)
  obtain ⟨details, hordered, rfl⟩ : ∃ details : List (String × String),
      details.Pairwise (·.1 < ·.1) ∧ _ = Failure.fieldsJson details := by
    rcases hdetails with hread | hstands
    · exact exists_details hread
    · exact ⟨[], .nil, (Option.some.inj hstands).symm⟩
  obtain ⟨requestId, rfl⟩ := exists_of_hands_text (required hrequestId)
  obtain ⟨timestamp, rfl⟩ := exists_of_hands_text (required htimestamp)
  obtain ⟨trace, -, rfl⟩ := exists_option htrace exists_text
  exact ⟨⟨code, message, userMessage, details, requestId, timestamp, trace⟩, hordered, rfl⟩

theorem ofRecord_record (e : Envelope) : ofRecord e.record = some e := by
  simp [ofRecord, record, get?, lookup, texts?_fieldsJson]

theorem wire_roundTrips : wire.RoundTrips Ordered :=
  Wire.roundTrips_of_record (fun _ => readsAs_record) (fun _ => exists_record) ofRecord_record

end Envelope

namespace Health

def wire : Wire Health :=
  ⟨schema, toJson, ofRecord⟩

def record (h : Health) : Json :=
  .object [("status", .text h.status), ("version", .text h.version),
    ("checks", .object [("store", .object [("status", .text h.storeStatus),
      ("message", .ofOption .text h.storeMessage)])])]

theorem readsAs_record (h : Health) : ReadsAs schema.read h.toJson h.record := by
  refine readRecord_shown _ (by decide) (.given (readsAs_text _) (.given (readsAs_text _)
    (.given (readRecord_shown _ (by decide)
      (.given (readRecord_shown _ (by decide) ?_) .nil)) .nil)))
  rw [List.singleton_append, ← List.append_nil (Claims.present "message" _)]
  exact .given (readsAs_text _)
    (.optional rfl refusesNull_text (fun s _ => readsAs_text s) .nil)

theorem exists_record {value : Json} (h : Hands schema.read value) :
    ∃ health : Health, value = health.record := by
  obtain ⟨members, rfl, hmembers⟩ := filled_of_hands (by decide) h
  obtain ⟨_, _, rfl, hstatus, hmembers⟩ := filled_cons hmembers
  obtain ⟨_, _, rfl, hversion, hmembers⟩ := filled_cons hmembers
  obtain ⟨_, _, rfl, hchecks, hmembers⟩ := filled_cons hmembers
  cases hmembers
  obtain ⟨checks, rfl, hinner⟩ := filled_of_hands (by decide) (required hchecks)
  obtain ⟨_, _, rfl, hstore, hinner⟩ := filled_cons hinner
  cases hinner
  obtain ⟨store, rfl, hinmost⟩ := filled_of_hands (by decide) (required hstore)
  obtain ⟨_, _, rfl, hstoreStatus, hinmost⟩ := filled_cons hinmost
  obtain ⟨_, _, rfl, hstoreMessage, hinmost⟩ := filled_cons hinmost
  cases hinmost
  obtain ⟨status, rfl⟩ := exists_of_hands_text (required hstatus)
  obtain ⟨version, rfl⟩ := exists_of_hands_text (required hversion)
  obtain ⟨storeStatus, rfl⟩ := exists_of_hands_text (required hstoreStatus)
  obtain ⟨storeMessage, -, rfl⟩ := exists_option hstoreMessage exists_text
  exact ⟨⟨status, version, storeStatus, storeMessage⟩, rfl⟩

theorem ofRecord_record (h : Health) : ofRecord h.record = some h := by
  simp [ofRecord, record, get?, lookup]

theorem wire_roundTrips : wire.RoundTrips fun _ => True :=
  Wire.roundTrips_of_record (fun a _ => readsAs_record a)
    (fun _ h => (exists_record h).imp fun _ ha => ⟨trivial, ha⟩) ofRecord_record

end Health

namespace Caller

def wire : Wire Caller :=
  ⟨schema, toJson, ofRecord⟩

-- Nothing is left out, so what is sent is what is received.
theorem readsAs_record (c : Caller) : ReadsAs schema.read c.toJson c.toJson :=
  readRecord_shown _ (by decide) (.given (readsAs_text _) (.given (readsAs_text _)
    (.given (readsAs_ofOption refusesNull_text fun s _ => readsAs_text s) .nil)))

theorem exists_record {value : Json} (h : Hands schema.read value) :
    ∃ caller : Caller, value = caller.toJson := by
  obtain ⟨members, rfl, hmembers⟩ := filled_of_hands (by decide) h
  obtain ⟨_, _, rfl, huserId, hmembers⟩ := filled_cons hmembers
  obtain ⟨_, _, rfl, hrequestId, hmembers⟩ := filled_cons hmembers
  obtain ⟨_, _, rfl, hcredentialId, hmembers⟩ := filled_cons hmembers
  cases hmembers
  obtain ⟨userId, rfl⟩ := exists_of_hands_text (required huserId)
  obtain ⟨requestId, rfl⟩ := exists_of_hands_text (required hrequestId)
  obtain ⟨credentialId, -, rfl⟩ := exists_option hcredentialId exists_text
  exact ⟨⟨userId, requestId, credentialId⟩, rfl⟩

theorem ofRecord_toJson (c : Caller) : ofRecord c.toJson = some c := by
  simp [ofRecord, toJson, get?, lookup]

theorem wire_roundTrips : wire.RoundTrips fun _ => True :=
  Wire.roundTrips_of_record (fun a _ => readsAs_record a)
    (fun _ h => (exists_record h).imp fun _ ha => ⟨trivial, ha⟩) ofRecord_toJson

end Caller

-- What is sent of the claims of a credential, of a failure, of the health of the service and of
-- a caller is received as it was, and what is received of any text is stable.
theorem wire_types_round_trip :
    Claims.wire.RoundTrips Claims.InRange ∧ Envelope.wire.RoundTrips Envelope.Ordered ∧
      Health.wire.RoundTrips (fun _ => True) ∧ Caller.wire.RoundTrips (fun _ => True) :=
  ⟨Claims.wire_roundTrips, Envelope.wire_roundTrips, Health.wire_roundTrips,
    Caller.wire_roundTrips⟩

-- The last second that can be told, and two field errors without a message.
theorem wire_types_round_trip_last_second :
    let claims : Claims := { subject := "\"", expiry := Numeral.maxWord, active := some false }
    let envelope : Envelope := {
      code := "VAL", userMessage := "", details := [("a", "\n"), ("b", "")], requestId := "r",
      timestamp := "t" }
    (claims.InRange ∧ Claims.wire.parse (Claims.wire.serialize claims) = .ok (some claims)) ∧
      envelope.Ordered ∧
        Envelope.wire.parse (Envelope.wire.serialize envelope) = .ok (some envelope) := by
  intro claims envelope
  have hclaims : claims.InRange := ⟨Nat.le_refl _, fun n hn => absurd hn (by simp [claims])⟩
  have henvelope : envelope.Ordered := by
    unfold Envelope.Ordered
    decide
  obtain ⟨hfirst, hsecond, -, -⟩ := wire_types_round_trip
  exact ⟨⟨hclaims, hfirst.1 claims hclaims⟩, henvelope, hsecond.1 envelope henvelope⟩

end RequestGuard
