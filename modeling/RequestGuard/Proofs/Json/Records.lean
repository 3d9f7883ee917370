import RequestGuard.Proofs.Json.Skipping
import RequestGuard.Proofs.Json.TypedFields
import RequestGuard.Proofs.Record.Fields
import RequestGuard.Token.Claims

namespace RequestGuard.Json

open Utf8 (encode)

-- What stands for a field that is not given.
def Presence.standIn : Presence → Option Json
  | required => none
  | nullable => some .null
  | defaulted value => some value

-- The fields of a record in their order, with what is given for each or stands for it, and the
-- members that give them.
inductive Shown : List Field → List (String × Json) → List (String × Json) → Prop
  | nil : Shown [] [] []
  | given {field : Field} {fields : List Field} {members written : List (String × Json)}
      {value shown : Json} (hread : ReadsAs field.read shown value)
      (hrest : Shown fields members written) :
      Shown (field :: fields) ((field.name, value) :: members) ((field.name, shown) :: written)
  | absent {field : Field} {fields : List Field} {members written : List (String × Json)}
      {value : Json} (hstands : field.presence.standIn = some value)
      (hrest : Shown fields members written) :
      Shown (field :: fields) ((field.name, value) :: members) written

-- The fields of a record with something that can come of each.
inductive Filled : List Field → List (String × Json) → Prop
  | nil : Filled [] []
  | read {field : Field} {fields : List Field} {members : List (String × Json)} {value : Json}
      (hread : Hands field.read value) (hrest : Filled fields members) :
      Filled (field :: fields) ((field.name, value) :: members)
  | absent {field : Field} {fields : List Field} {members : List (String × Json)} {value : Json}
      (hstands : field.presence.standIn = some value) (hrest : Filled fields members) :
      Filled (field :: fields) ((field.name, value) :: members)

-- A member as it is written, with what a record takes of it, if anything.
structure Entry where
  key : String
  written : Json
  taken : Option Json

namespace Entry

def member (entry : Entry) : String × Json :=
  (entry.key, entry.written)

def pairs (entry : Entry) : List (String × Json) :=
  (entry.taken.map (entry.key, ·)).toList

def add (seen : List (String × Json)) (entry : Entry) : List (String × Json) :=
  seen ++ entry.pairs

-- A known member is read, another one is passed over.
def ReadBy (fields : List Field) (entry : Entry) : Prop :=
  match entry.taken with
  | some value => ∃ field, fields.find? (·.name == entry.key) = some field ∧
      ReadsAs field.read entry.written value
  | none => fields.find? (·.name == entry.key) = none ∧ PassedOver entry.written

end Entry

variable {fields : List Field} {field : Field} {entries : List Entry}
  {members written : List (String × Json)} {value shown : Json} {read : Reader Json}

-- Reading a record back

theorem readColon_written (bytes : Bytes) : readColon (0x3A :: bytes) = .ok bytes := by
  simp [readColon, skip, isSpace]

theorem writtenMember_append (member : String × Json) (rest : Bytes) :
    writtenMember member ++ rest = encode (member.1.toList.flatMap escape) ++
      0x22 :: 0x3A :: (encode member.2.write ++ rest) := by
  simp [writtenMember]

theorem readEntry_written {entry : Entry} (h : entry.ReadBy fields) {seen : List (String × Json)}
    (hnew : lookup entry.key seen = none) {rest : Bytes} (hrest : EndsNumber rest) :
    readEntry fields seen (writtenMember entry.member ++ rest) = .ok (entry.add seen, rest) := by
  obtain ⟨key, written, taken⟩ := entry
  rw [writtenMember_append]
  unfold readEntry
  simp only [Entry.member, readText_writeText, readColon_written]
  cases taken with
  | none =>
      obtain ⟨hfield, hskip⟩ := h
      simp [hfield, hskip rest hrest, Entry.add, Entry.pairs, Except.map]
  | some value =>
      obtain ⟨field, hfield, hread⟩ := h
      simp only at hnew
      simp [hfield, hnew, hread rest hrest, Entry.add, Entry.pairs, Except.map]

theorem foldl_add (seen : List (String × Json)) (entries : List Entry) :
    entries.foldl Entry.add seen = seen ++ entries.flatMap Entry.pairs := by
  induction entries generalizing seen with
  | nil => simp
  | cons entry rest ih => rw [List.foldl_cons, ih, Entry.add, List.append_assoc, List.flatMap_cons]

theorem lookup_pairs_eq_none {key : String} (h : key ∉ entries.map Entry.key) :
    lookup key (entries.flatMap Entry.pairs) = none := by
  refine lookup_eq_none fun hmem => h ?_
  obtain ⟨pair, hpair, rfl⟩ := List.mem_map.mp hmem
  obtain ⟨entry, hentry, hpair⟩ := List.mem_flatMap.mp hpair
  obtain ⟨value, -, rfl⟩ := Option.map_eq_some_iff.mp (Option.mem_toList.mp hpair)
  exact List.mem_map_of_mem hentry

theorem readNamed_entries (hread : ∀ e ∈ entries, e.ReadBy fields)
    (hkeys : (entries.map Entry.key).Nodup)
    (hgather : gather (entries.flatMap Entry.pairs) fields = .ok members) (rest : Bytes) :
    readNamed fields (encode (separated (writeMembers (entries.map Entry.member))) ++
      0x7D :: rest) = .ok (object members, rest) := by
  have hentry : ∀ before e after, entries = before ++ e :: after → ∀ rest, EndsNumber rest →
      readEntry fields (before.foldl Entry.add []) (writtenMember e.member ++ rest) =
        .ok (Entry.add (before.foldl Entry.add []) e, rest) := by
    intro before e after hsplit behind hbehind
    have hnew : e.key ∉ before.map Entry.key := by
      rw [hsplit, List.map_append, List.map_cons] at hkeys
      exact fun hmem => List.disjoint_of_nodup_append hkeys hmem List.mem_cons_self
    refine readEntry_written (hread e (by simp [hsplit])) ?_ hbehind
    rw [foldl_add, List.nil_append]
    exact lookup_pairs_eq_none hnew
  have hmembers := readMembers_object Entry.member Entry.add [] hentry rest
  rw [foldl_add, List.nil_append] at hmembers
  simp only [readNamed, hmembers, hgather]

theorem readRecord_entries (name : String) (hread : ∀ e ∈ entries, e.ReadBy fields)
    (hkeys : (entries.map Entry.key).Nodup)
    (hgather : gather (entries.flatMap Entry.pairs) fields = .ok members) :
    ReadsAs (readRecord name fields) (object (entries.map Entry.member)) (object members) := by
  intro rest _
  rw [encode_object, readRecord, skip_cons (by decide)]
  exact readNamed_entries hread hkeys hgather rest

-- What is gathered

theorem gather_of_lookup {seen : List (String × Json)} (h : lookup field.name seen = some value)
    (hrest : gather seen fields = .ok members) :
    gather seen (field :: fields) = .ok ((field.name, value) :: members) := by
  simp [gather, h, hrest, Except.map]

theorem gather_of_standIn {seen : List (String × Json)} (h : lookup field.name seen = none)
    (hstands : field.presence.standIn = some value) (hrest : gather seen fields = .ok members) :
    gather seen (field :: fields) = .ok ((field.name, value) :: members) := by
  cases hpresence : field.presence with
  | required => simp [hpresence, Presence.standIn] at hstands
  | nullable =>
      simp only [hpresence, Presence.standIn, Option.some.injEq] at hstands
      simp [gather, h, hpresence, hrest, Except.map, hstands]
  | defaulted other =>
      simp only [hpresence, Presence.standIn, Option.some.injEq] at hstands
      simp [gather, h, hpresence, hrest, Except.map, hstands]

theorem not_mem_keys {name : String} (hfresh : name ∉ fields.map Field.name)
    (hentries : ∀ e ∈ entries, ∃ field ∈ fields, field.name = e.key) :
    name ∉ entries.map Entry.key := by
  intro hmem
  obtain ⟨e, he, rfl⟩ := List.mem_map.mp hmem
  obtain ⟨field, hfield, hname⟩ := hentries e he
  exact hfresh (List.mem_map.mpr ⟨field, hfield, hname⟩)

theorem Shown.exists_entries (h : Shown fields members written)
    (hnames : (fields.map Field.name).Nodup) :
    ∃ entries : List Entry, entries.map Entry.member = written ∧
      (∀ e ∈ entries, ∃ field ∈ fields, field.name = e.key ∧
        ∃ value, e.taken = some value ∧ ReadsAs field.read e.written value) ∧
      (entries.map Entry.key).Nodup ∧
      ∀ seen, (∀ field ∈ fields,
        lookup field.name seen = lookup field.name (entries.flatMap Entry.pairs)) →
          gather seen fields = .ok members := by
  induction h with
  | nil => exact ⟨[], rfl, List.forall_mem_nil _, .nil, fun _ _ => rfl⟩
  | @given field fields members written value shown hread hrest ih =>
      obtain ⟨hfresh, hnames⟩ := List.nodup_cons.mp hnames
      obtain ⟨entries, rfl, hentries, hkeys, hgather⟩ := ih hnames
      have hnew := not_mem_keys hfresh fun e he => (hentries e he).imp fun _ h => ⟨h.1, h.2.1⟩
      refine ⟨⟨field.name, shown, some value⟩ :: entries, rfl, ?_, ?_, fun seen hseen => ?_⟩
      · refine List.forall_mem_cons.mpr ⟨?_, fun e he => ?_⟩
        · exact ⟨field, List.mem_cons_self, rfl, value, rfl, hread⟩
        · obtain ⟨other, hother, hrest⟩ := hentries e he
          exact ⟨other, List.mem_cons_of_mem _ hother, hrest⟩
      · exact List.nodup_cons.mpr ⟨hnew, hkeys⟩
      · obtain ⟨hfirst, hmore⟩ := List.forall_mem_cons.mp hseen
        refine gather_of_lookup (hfirst.trans (if_pos rfl)) (hgather seen fun other hother => ?_)
        have hne : ¬field.name = other.name := fun heq =>
          hfresh (List.mem_map.mpr ⟨other, hother, heq.symm⟩)
        exact (hmore other hother).trans (if_neg hne)
  | @absent field fields members written value hstands hrest ih =>
      obtain ⟨hfresh, hnames⟩ := List.nodup_cons.mp hnames
      obtain ⟨entries, rfl, hentries, hkeys, hgather⟩ := ih hnames
      have hnew := not_mem_keys hfresh fun e he => (hentries e he).imp fun _ h => ⟨h.1, h.2.1⟩
      refine ⟨entries, rfl, fun e he => ?_, hkeys, fun seen hseen => ?_⟩
      · obtain ⟨other, hother, hrest⟩ := hentries e he
        exact ⟨other, List.mem_cons_of_mem _ hother, hrest⟩
      · obtain ⟨hfirst, hmore⟩ := List.forall_mem_cons.mp hseen
        exact gather_of_standIn (hfirst.trans (lookup_pairs_eq_none hnew)) hstands
          (hgather seen hmore)

theorem find?_name (hnames : (fields.map Field.name).Nodup) (h : field ∈ fields) :
    fields.find? (·.name == field.name) = some field := by
  induction fields with
  | nil => exact absurd h List.not_mem_nil
  | cons first rest ih =>
      obtain ⟨hfresh, hnames⟩ := List.nodup_cons.mp hnames
      rcases List.mem_cons.mp h with rfl | hrest
      · simp
      · have hne : first.name ≠ field.name := fun heq =>
          hfresh (List.mem_map.mpr ⟨field, hrest, heq.symm⟩)
        rw [List.find?_cons_of_neg (by simpa using hne), ih hnames hrest]

-- A record is read back with all its fields from those that are written.
theorem readRecord_shown (name : String) (hnames : (fields.map Field.name).Nodup)
    (h : Shown fields members written) :
    ReadsAs (readRecord name fields) (object written) (object members) := by
  obtain ⟨entries, rfl, hentries, hkeys, hgather⟩ := h.exists_entries hnames
  refine readRecord_entries name (fun e he => ?_) hkeys (hgather _ fun _ _ => rfl)
  obtain ⟨field, hfield, hname, value, htaken, hread⟩ := hentries e he
  rw [Entry.ReadBy, htaken]
  exact ⟨field, hname ▸ find?_name hnames hfield, hread⟩

-- A field that is left out when there is nothing to give.
theorem Shown.optional {name : String} {presence : Presence} {inner : Reader Json} {f : α → Json}
    {o : Option α} (hstands : presence.standIn = some null) (hrefuses : RefusesNull inner)
    (hread : ∀ a ∈ o, ReadsAs inner (f a) (f a)) (hrest : Shown fields members written) :
    Shown (⟨name, presence, readOptional inner⟩ :: fields) ((name, ofOption f o) :: members)
      (Claims.present name (o.map f) ++ written) := by
  cases o with
  | none => exact .absent hstands hrest
  | some a => exact .given (readsAs_optional hrefuses (hread a rfl)) hrest

-- What can come of a record

theorem filled_cons (h : Filled (field :: fields) members) :
    ∃ value rest, members = (field.name, value) :: rest ∧
      (Hands field.read value ∨ field.presence.standIn = some value) ∧ Filled fields rest := by
  cases h with
  | read hread hrest => exact ⟨_, _, rfl, .inl hread, hrest⟩
  | absent hstands hrest => exact ⟨_, _, rfl, .inr hstands, hrest⟩

theorem mem_of_lookup {key : String} (h : lookup key members = some value) :
    (key, value) ∈ members := by
  induction members with
  | nil => cases h
  | cons head rest ih =>
      obtain ⟨k, v⟩ := head
      rw [lookup] at h
      split at h
      · next hkey =>
          cases h
          exact hkey ▸ List.mem_cons_self
      · exact List.mem_cons_of_mem _ (ih h)

theorem readEntry_eq_ok {seen result : List (String × Json)} {text rest : Bytes}
    (h : readEntry fields seen text = .ok (result, rest)) : result = seen ∨
      ∃ key field value, fields.find? (·.name == key) = some field ∧ Hands field.read value ∧
        result = seen ++ [(key, value)] := by
  unfold readEntry at h
  split at h
  · contradiction
  · next key behind _ =>
      split at h
      · split at h
        · contradiction
        · obtain ⟨last, -, heq⟩ := map_eq_ok h
          cases heq
          exact .inl rfl
      · next field hfield =>
          split at h
          · contradiction
          · split at h
            · contradiction
            · next after _ =>
                obtain ⟨⟨value, last⟩, hread, heq⟩ := map_eq_ok h
                cases heq
                exact .inr ⟨key, field, value, hfield, ⟨after, _, hread⟩, rfl⟩

theorem filled_of_gather {all : List Field} (hnames : (all.map Field.name).Nodup)
    {seen : List (String × Json)}
    (hseen : ∀ pair ∈ seen, ∃ field, all.find? (·.name == pair.1) = some field ∧
      Hands field.read pair.2)
    (hfields : ∀ field ∈ fields, field ∈ all) (h : gather seen fields = .ok members) :
    Filled fields members := by
  induction fields generalizing members with
  | nil =>
      cases h
      exact .nil
  | cons field more ih =>
      obtain ⟨hfield, hmore⟩ := List.forall_mem_cons.mp hfields
      rw [gather] at h
      split at h
      · next value hlookup =>
          obtain ⟨others, hothers, rfl⟩ := map_eq_ok h
          obtain ⟨found, hfound, hread⟩ := hseen _ (mem_of_lookup hlookup)
          cases hfound.symm.trans (find?_name hnames hfield)
          exact .read hread (ih hmore hothers)
      · contradiction
      · next hpresence =>
          obtain ⟨others, hothers, rfl⟩ := map_eq_ok h
          exact .absent (by rw [hpresence, Presence.standIn]) (ih hmore hothers)
      · next value _ hpresence =>
          obtain ⟨others, hothers, rfl⟩ := map_eq_ok h
          exact .absent (by rw [hpresence, Presence.standIn]) (ih hmore hothers)

theorem filled_of_readNamed (hnames : (fields.map Field.name).Nodup) {input rest : Bytes}
    (h : readNamed fields input = .ok (value, rest)) :
    ∃ members, value = object members ∧ Filled fields members := by
  unfold readNamed at h
  split at h
  · contradiction
  · next seen after hread =>
      have hseen := readMembers_preserves
        (P := fun seen => ∀ pair ∈ seen, ∃ field, fields.find? (·.name == pair.1) = some field ∧
          Hands field.read pair.2)
        (fun {gathered _ more _} hgathered hentry => by
          rcases readEntry_eq_ok hentry with rfl | ⟨key, field, v, hfield, hv, rfl⟩
          · exact hgathered
          · intro pair hpair
            rcases List.mem_append.mp hpair with hpair | hpair
            · exact hgathered pair hpair
            · rw [List.mem_singleton.mp hpair]
              exact ⟨field, hfield, hv⟩)
        (List.forall_mem_nil _) hread
      split at h
      · contradiction
      · next members hgather =>
          cases h
          exact ⟨members, rfl, filled_of_gather hnames hseen (fun _ hfield => hfield) hgather⟩

theorem filled_of_readListed {expected : String} {index : Nat} {input rest : Bytes}
    (h : readListed expected index fields input = .ok (members, rest)) :
    Filled fields members := by
  induction fields generalizing index input members with
  | nil =>
      obtain ⟨last, -, heq⟩ := map_eq_ok h
      cases heq
      exact .nil
  | cons field more ih =>
      -- an item that is there is read, and the others after it
      have hitem : ∀ {text value after}, field.read text = .ok (value, after) →
          ((readListed expected (index + 1) more after).map
            fun found => ((field.name, value) :: found.1, found.2)) = .ok (members, rest) →
          Filled (field :: more) members := by
        intro text value after hread hmore
        obtain ⟨⟨others, last⟩, hothers, heq⟩ := map_eq_ok hmore
        cases heq
        exact .read ⟨text, after, hread⟩ (ih hothers)
      unfold readListed at h
      dsimp only at h
      repeat' split at h
      all_goals try contradiction
      · next value hpresence =>
          obtain ⟨⟨others, last⟩, hothers, heq⟩ := map_eq_ok h
          cases heq
          exact .absent (by rw [hpresence, Presence.standIn]) (ih hothers)
      · exact hitem ‹field.read _ = .ok _› h
      · exact hitem ‹field.read _ = .ok _› h

-- Given by names or as a list, each field of a record is read or something stands for it.
theorem filled_of_hands {name : String} (hnames : (fields.map Field.name).Nodup)
    (h : Hands (readRecord name fields) value) :
    ∃ members, value = object members ∧ Filled fields members := by
  obtain ⟨input, rest, hread⟩ := h
  unfold readRecord at hread
  split at hread
  · contradiction
  · split at hread
    · obtain ⟨⟨members, after⟩, hlisted, heq⟩ := map_eq_ok hread
      cases heq
      exact ⟨members, rfl, filled_of_readListed hlisted⟩
    · split at hread
      · exact filled_of_readNamed hnames hread
      · contradiction

end RequestGuard.Json
