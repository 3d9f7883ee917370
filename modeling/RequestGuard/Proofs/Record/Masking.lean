import RequestGuard.Guard.Exchange
import RequestGuard.Proofs.Json.Places

namespace RequestGuard

-- A key that is one of some names, in any case of its letters.
def Listed (names : List String) (key : String) : Prop :=
  ∃ name ∈ names, lowered name = lowered key

theorem listed_iff {names : List String} {key : String} :
    Listed names key ↔ (names.map lowered).contains (lowered key) = true := by
  simp [Listed]

namespace Json

-- What can be seen of a value without a look into its parts.
inductive Face where
  | leaf (value : Json)
  | items (count : Nat)
  | keys (keys : List String)

def face : Json → Face
  | array items => .items items.length
  | object members => .keys (members.map Prod.fst)
  | other => .leaf other

-- A way that passes no name of the list.
def Open (names : List String) (place : List Step) : Prop :=
  ∀ i key, .member i key ∈ place → ¬Listed names key

-- What can be seen of a value at a place that is not hidden.
def Shows (names : List String) (value : Json) (place : List Step) (seen : Face) : Prop :=
  Open names place ∧ ∃ part, At value place part ∧ part.face = seen

def SameOutside (names : List String) (a b : Json) : Prop :=
  ∀ place seen, Shows names a place seen ↔ Shows names b place seen

-- A value with what stands under the names hidden.
def masked (names : List String) (value : Json) : Json :=
  redact (names.map lowered) value

-- What stands for the value of a member.
def maskedMember (names : List String) (key : String) (value : Json) : Json :=
  if (names.map lowered).contains (lowered key) then text redactedMark else masked names value

variable {names : List String} {value part : Json} {items : List Json}
  {members : List (String × Json)} {place : List Step} {seen : Face} {i : Nat} {key : String}

theorem redactItems_eq_map (items : List Json) :
    redactItems (names.map lowered) items = items.map (masked names) := by
  induction items with
  | nil => rfl
  | cons item rest ih =>
      rw [redactItems, List.map_cons, ih]
      rfl

theorem redactMembers_eq_map (members : List (String × Json)) :
    redactMembers (names.map lowered) members =
      members.map fun member => (member.1, maskedMember names member.1 member.2) := by
  induction members with
  | nil => rfl
  | cons member rest ih =>
      obtain ⟨key, value⟩ := member
      rw [redactMembers, List.map_cons, ih]
      rfl

theorem lookup_map (f : String → Json → Json) (key : String) (members : List (String × Json)) :
    lookup key (members.map fun (k, v) => (k, f k v)) = (lookup key members).map (f key) := by
  induction members with
  | nil => rfl
  | cons head rest ih =>
      obtain ⟨k, v⟩ := head
      rw [List.map_cons, lookup, lookup]
      split
      · next heq => rw [heq, Option.map_some]
      · exact ih

theorem masked_array (items : List Json) :
    masked names (array items) = array (items.map (masked names)) := by
  rw [masked, redact, redactItems_eq_map]

theorem masked_object (members : List (String × Json)) :
    masked names (object members) =
      object (members.map fun member => (member.1, maskedMember names member.1 member.2)) := by
  rw [masked, redact, redactMembers_eq_map]

theorem maskedMember_of_listed (h : Listed names key) (value : Json) :
    maskedMember names key value = text redactedMark :=
  if_pos (listed_iff.mp h)

theorem maskedMember_of_open (h : ¬Listed names key) (value : Json) :
    maskedMember names key value = masked names value :=
  if_neg fun hlisted => h (listed_iff.mpr hlisted)

theorem face_masked (names : List String) (value : Json) :
    (masked names value).face = value.face := by
  cases value with
  | array items => rw [masked_array, face, face, List.length_map]
  | object members => rw [masked_object, face, face, List.map_map]; rfl
  | _ => rfl

-- The open ways

theorem open_nil : Open names [] :=
  fun _ _ h => absurd h List.not_mem_nil

theorem open_item : Open names (.item i :: place) ↔ Open names place := by
  simp [Open]

theorem open_member :
    Open names (.member i key :: place) ↔ ¬Listed names key ∧ Open names place := by
  constructor
  · intro h
    refine ⟨h i key List.mem_cons_self, fun j other hother => ?_⟩
    exact h j other (List.mem_cons_of_mem _ hother)
  · rintro ⟨hkey, hplace⟩ j other hother
    rcases List.mem_cons.mp hother with heq | hrest
    · cases heq
      exact hkey
    · exact hplace j other hrest

theorem shows_nil : Shows names value [] seen ↔ value.face = seen := by
  simp [Shows, open_nil, at_nil]

theorem shows_item {item : Json} (h : items[i]? = some item) :
    Shows names (array items) (.item i :: place) seen ↔ Shows names item place seen := by
  simp [Shows, open_item, at_item, h]

theorem shows_member (h : members[i]? = some (key, value)) (hkey : ¬Listed names key) :
    Shows names (object members) (.member i key :: place) seen ↔
      Shows names value place seen := by
  simp [Shows, open_member, at_member, h, hkey]

-- What is masked, and what is not

theorem at_masked (h : At value place part) (hopen : Open names place) :
    At (masked names value) place (masked names part) := by
  induction h with
  | here value => exact .here _
  | item hitem hpart ih =>
      have hrest := ih (open_item.mp hopen)
      rw [masked_array]
      exact .item (by rw [List.getElem?_map, hitem, Option.map_some]) hrest
  | member hmember hpart ih =>
      obtain ⟨hkey, hplace⟩ := open_member.mp hopen
      have hrest := ih hplace
      rw [masked_object]
      refine .member ?_ hrest
      rw [List.getElem?_map, hmember, Option.map_some, maskedMember_of_open hkey]

-- The value under a name is the mark, however deep it lies.
theorem at_hidden (h : At value (place ++ [.member i key]) part) (hopen : Open names place)
    (hkey : Listed names key) :
    At (masked names value) (place ++ [.member i key]) (text redactedMark) := by
  induction place generalizing value with
  | nil =>
      cases h with
      | member hmember hpart =>
          rw [masked_object]
          refine .member ?_ (.here _)
          rw [List.getElem?_map, hmember, Option.map_some, maskedMember_of_listed hkey]
  | cons step rest ih =>
      cases h with
      | item hitem hpart =>
          have hrest := ih hpart (open_item.mp hopen)
          rw [masked_array]
          exact .item (by rw [List.getElem?_map, hitem, Option.map_some]) hrest
      | member hmember hpart =>
          obtain ⟨hother, hplace⟩ := open_member.mp hopen
          have hrest := ih hpart hplace
          rw [masked_object]
          refine .member ?_ hrest
          rw [List.getElem?_map, hmember, Option.map_some, maskedMember_of_open hother]

-- Nothing is at an open place of a masked value that was not there before.
theorem exists_of_at_masked {told : Json} (h : At (masked names value) place told)
    (hopen : Open names place) : ∃ part, At value place part ∧ told = masked names part := by
  induction place generalizing value with
  | nil => exact ⟨value, .here value, at_nil.mp h⟩
  | cons step rest ih =>
      cases value with
      | array items =>
          rw [masked_array] at h
          cases h with
          | item hitem hpart =>
              rw [List.getElem?_map] at hitem
              obtain ⟨item, hfound, rfl⟩ := Option.map_eq_some_iff.mp hitem
              obtain ⟨part, hrest, rfl⟩ := ih hpart (open_item.mp hopen)
              exact ⟨part, .item hfound hrest, rfl⟩
      | object members =>
          rw [masked_object] at h
          cases h with
          | member hmember hpart =>
              obtain ⟨hkey, hplace⟩ := open_member.mp hopen
              rw [List.getElem?_map] at hmember
              obtain ⟨member, hfound, heq⟩ := Option.map_eq_some_iff.mp hmember
              obtain ⟨rfl, rfl⟩ := Prod.mk.inj heq
              rw [maskedMember_of_open hkey] at hpart
              obtain ⟨part, hrest, rfl⟩ := ih hpart hplace
              exact ⟨part, .member hfound hrest, rfl⟩
      | _ => cases h

theorem sameOutside_masked (names : List String) (value : Json) :
    SameOutside names (masked names value) value := by
  intro place seen
  constructor
  · rintro ⟨hopen, told, htold, rfl⟩
    obtain ⟨part, hpart, rfl⟩ := exists_of_at_masked htold hopen
    exact ⟨hopen, part, hpart, (face_masked names part).symm⟩
  · rintro ⟨hopen, part, hpart, rfl⟩
    exact ⟨hopen, masked names part, at_masked hpart hopen, face_masked names part⟩

-- Two values that differ under the names only

theorem SameOutside.face_eq {a b : Json} (h : SameOutside names a b) : a.face = b.face :=
  (shows_nil.mp ((h [] a.face).mp (shows_nil.mpr rfl))).symm

theorem SameOutside.item {a b : List Json} (h : SameOutside names (array a) (array b))
    {item other : Json} (hitem : a[i]? = some item) (hother : b[i]? = some other) :
    SameOutside names item other := by
  intro place seen
  rw [← shows_item hitem, ← shows_item hother]
  exact h _ seen

theorem SameOutside.member {a b : List (String × Json)}
    (h : SameOutside names (object a) (object b)) {value other : Json}
    (hvalue : a[i]? = some (key, value)) (hother : b[i]? = some (key, other))
    (hkey : ¬Listed names key) : SameOutside names value other := by
  intro place seen
  rw [← shows_member hvalue hkey, ← shows_member hother hkey]
  exact h _ seen

theorem eq_of_face_eq_leaf {leaf : Json} (h : value.face = .leaf leaf) : value = leaf := by
  cases value with
  | array items => cases h
  | object members => cases h
  | _ => exact Face.leaf.inj h

theorem exists_array_of_face {count : Nat} (h : value.face = .items count) :
    ∃ items, value = array items ∧ items.length = count := by
  cases value with
  | array items => exact ⟨items, rfl, Face.items.inj h⟩
  | _ => cases h

theorem exists_object_of_face {keys : List String} (h : value.face = .keys keys) :
    ∃ members, value = object members ∧ members.map Prod.fst = keys := by
  cases value with
  | object members => exact ⟨members, rfl, Face.keys.inj h⟩
  | _ => cases h

theorem masked_eq_of_sameOutside {a b : Json} (h : SameOutside names a b) :
    masked names a = masked names b := by
  induction a generalizing b with
  | array items ih =>
      obtain ⟨others, rfl, hlength⟩ := exists_array_of_face h.face_eq.symm
      rw [masked_array, masked_array]
      refine congrArg array (List.ext_getElem (by simp [hlength]) fun i hi hj => ?_)
      rw [List.length_map] at hi hj
      rw [List.getElem_map, List.getElem_map]
      apply ih _ (List.getElem_mem hi)
      exact h.item (List.getElem?_eq_getElem hi) (List.getElem?_eq_getElem hj)
  | object members ih =>
      obtain ⟨others, rfl, hkeys⟩ := exists_object_of_face h.face_eq.symm
      have hlength : others.length = members.length := by
        simpa using congrArg List.length hkeys
      rw [masked_object, masked_object]
      refine congrArg object (List.ext_getElem (by simp [hlength]) fun i hi hj => ?_)
      rw [List.length_map] at hi hj
      rw [List.getElem_map, List.getElem_map]
      have hkey : others[i].1 = members[i].1 := by
        have hname := congrArg (·[i]?) hkeys
        simpa [hi, hj] using hname
      by_cases hlisted : Listed names members[i].1
      · rw [hkey, maskedMember_of_listed hlisted, maskedMember_of_listed hlisted]
      · rw [hkey, maskedMember_of_open hlisted, maskedMember_of_open hlisted]
        have hother : others[i]? = some (members[i].1, others[i].2) := by
          rw [List.getElem?_eq_getElem hj, ← hkey]
        refine congrArg (Prod.mk _) (ih _ (List.getElem_mem hi) ?_)
        exact h.member (List.getElem?_eq_getElem hi) hother hlisted
  | _ => exact congrArg (masked names) (eq_of_face_eq_leaf h.face_eq.symm).symm

theorem masked_eq_iff {a b : Json} :
    masked names a = masked names b ↔ SameOutside names a b := by
  constructor
  · intro heq place seen
    rw [← sameOutside_masked names a, heq, sameOutside_masked names b]
  · exact masked_eq_of_sameOutside

end Json

namespace Record

open Json (At Open Shows SameOutside masked)

-- The fields as one value.
def whole (record : Record) : Json :=
  .object record.fields

theorem whole_redacted (names : List String) (record : Record) :
    (record.redacted names).whole = masked names record.whole := by
  rw [whole, whole, masked, Json.redact]
  rfl

theorem get?_redacted (names : List String) (record : Record) (key : String) :
    (record.redacted names).get? key = (record.get? key).map (Json.maskedMember names key) := by
  simp only [get?, redacted, Json.redactMembers_eq_map]
  exact Json.lookup_map ..

theorem get?_redacted_of_open {names : List String} {key s : String} {record : Record}
    (hkey : ¬Listed names key) (h : record.get? key = some (.text s)) :
    (record.redacted names).get? key = some (.text s) := by
  rw [get?_redacted, h, Option.map_some, Json.maskedMember_of_open hkey]
  rfl

theorem eq_iff_whole {a b : Record} : a = b ↔
    a.category = b.category ∧ a.severity = b.severity ∧ a.message = b.message ∧
      a.whole = b.whole := by
  constructor
  · rintro rfl
    exact ⟨rfl, rfl, rfl, rfl⟩
  · obtain ⟨category, severity, message, fields⟩ := a
    rintro ⟨rfl, rfl, rfl, hfields⟩
    cases hfields
    rfl

theorem redacted_eq_iff {names : List String} {a b : Record} :
    a.redacted names = b.redacted names ↔ a.category = b.category ∧ a.severity = b.severity ∧
      a.message = b.message ∧ SameOutside names a.whole b.whole := by
  rw [eq_iff_whole, whole_redacted, whole_redacted, Json.masked_eq_iff]
  exact Iff.rfl

theorem redacted_redacted (names : List String) (record : Record) :
    (record.redacted names).redacted names = record.redacted names := by
  rw [redacted_eq_iff, whole_redacted]
  exact ⟨rfl, rfl, rfl, Json.sameOutside_masked names record.whole⟩

-- What is delivered of a record is the record with what stands under the names hidden, and only
-- that: two records are delivered as one exactly if they differ nowhere else.
theorem delivery_exact (names : List String) (exchange : Exchange α) (record : Record) :
    ∃ delivered, (exchange.write names record).records = exchange.records ++ [delivered] ∧
      delivered.category = record.category ∧ delivered.severity = record.severity ∧
      delivered.message = record.message ∧
      (∀ place seen, Shows names delivered.whole place seen ↔ Shows names record.whole place seen) ∧
      (∀ place i key value, Open names place → Listed names key →
        At record.whole (place ++ [.member i key]) value →
        ∀ told, At delivered.whole (place ++ [.member i key]) told ↔ told = .text redactedMark) ∧
      (∀ other : Record, other.redacted names = delivered ↔
        other.category = record.category ∧ other.severity = record.severity ∧
        other.message = record.message ∧ SameOutside names other.whole record.whole) ∧
      delivered.redacted names = delivered := by
  have hsame := whole_redacted names record ▸ Json.sameOutside_masked names record.whole
  refine ⟨record.redacted names, rfl, rfl, rfl, rfl, hsame, ?_, ?_, ?_⟩
  · intro place i key value hopen hkey hvalue told
    have hmark := Json.at_hidden hvalue hopen hkey
    rw [whole_redacted]
    exact ⟨fun htold => htold.unique hmark, fun htold => htold ▸ hmark⟩
  · exact fun other => redacted_eq_iff
  · exact redacted_redacted names record

-- Deep in a record a whole value is hidden, in whatever letters its key and the name are written,
-- and what stands beside it is told.
theorem delivery_exact_at_depth :
    let names := ["PASSword"]
    let exchange : Exchange Unit :=
      { context := ⟨"a", "now", none, [], [], [], [], [], []⟩, backend := {},
        clocks := ⟨0, 0, 0, "now"⟩, routes := () }
    let user : Json := .object [("PassWord", .object [("old", .text "b")]), ("name", .text "c")]
    let record : Record := ⟨.request, .info, "answered", [("users", .array [user])]⟩
    let place : List Json.Step := [.member 0 "users", .item 0]
    ∃ delivered, (exchange.write names record).records = [delivered] ∧
      (∀ told, At delivered.whole (place ++ [.member 0 "PassWord"]) told ↔
        told = .text "[REDACTED]") ∧
      Shows names delivered.whole (place ++ [.member 1 "name"]) (.leaf (.text "c")) := by
  intro names exchange user record place
  have hlisted (key : String) : Listed names key ↔ lowered "PASSword" = lowered key := by
    simp [names, Listed]
  have husers : ¬Listed names "users" := fun h => absurd ((hlisted _).mp h) (by decide)
  have hname : ¬Listed names "name" := fun h => absurd ((hlisted _).mp h) (by decide)
  have hopen : Open names place := Json.open_member.mpr ⟨husers, Json.open_item.mpr Json.open_nil⟩
  obtain ⟨delivered, hrecords, -, -, -, hshows, hhidden, -⟩ := delivery_exact names exchange record
  refine ⟨delivered, hrecords, ?_, (hshows _ _).mpr ⟨?_, .text "c", ?_, rfl⟩⟩
  · exact hhidden place 0 "PassWord" _ hopen ((hlisted _).mpr (by decide))
      (.member rfl (.item rfl (.member rfl (.here _))))
  · exact Json.open_member.mpr ⟨husers, Json.open_item.mpr (Json.open_member.mpr ⟨hname,
      Json.open_nil⟩)⟩
  · exact .member rfl (.item rfl (.member rfl (.here _)))

end Record

end RequestGuard
