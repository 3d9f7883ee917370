import RequestGuard.Json.Reader
import RequestGuard.Proofs.Json.Canonical

namespace RequestGuard.Json

-- What holds of all that an item reader hands on holds of all items of a list.
theorem readItems_forall {item : Reader α} {P : α → Prop}
    (hitem : ∀ {text a rest}, item text = .ok (a, rest) → P a) {fuel : Nat} {first : Bool}
    {input rest : Bytes} {items : List α}
    (h : readItems item fuel first input = .ok (items, rest)) :
    ∀ a ∈ items, P a := by
  induction fuel generalizing first input items rest with
  | zero => contradiction
  | succ fuel ih =>
      have hnext : ∀ {text a after more last}, item text = .ok (a, after) →
          readItems item fuel false after = .ok (more, last) → ∀ x ∈ a :: more, P x :=
        fun hfirst hmore => List.forall_mem_cons.mpr ⟨hitem hfirst, ih hmore⟩
      simp only [readItems] at h
      repeat' split at h
      all_goals cases h
      · exact fun x hx => absurd hx List.not_mem_nil
      · exact hnext ‹item _ = .ok _› ‹readItems item fuel false _ = .ok _›
      · exact hnext ‹item _ = .ok _› ‹readItems item fuel false _ = .ok _›

-- What an entry reader keeps up holds of all that is gathered.
theorem readMembers_preserves {entry : σ → Reader σ} {P : σ → Prop}
    (hentry : ∀ {gathered text more rest}, P gathered → entry gathered text = .ok (more, rest) →
      P more) {fuel : Nat} {first : Bool} {gathered result : σ} {input rest : Bytes}
    (hgathered : P gathered)
    (h : readMembers entry fuel first gathered input = .ok (result, rest)) : P result := by
  induction fuel generalizing first gathered input with
  | zero => contradiction
  | succ fuel ih =>
      have hnext : ∀ {text more after}, entry gathered text = .ok (more, after) →
          readMembers entry fuel false more after = .ok (result, rest) → P result :=
        fun hmore hrest => ih (hentry hgathered hmore) hrest
      simp only [readMembers] at h
      repeat' split at h
      all_goals try contradiction
      · cases h
        exact hgathered
      · exact hnext ‹entry gathered _ = .ok _› h
      · exact hnext ‹entry gathered _ = .ok _› h

theorem bind_eq_ok {x : Except ε α} {f : α → Except ε β} {b : β} (h : x.bind f = .ok b) :
    ∃ a, x = .ok a ∧ f a = .ok b := by
  cases x with
  | error e => contradiction
  | ok a => exact ⟨a, rfl, h⟩

theorem map_eq_ok {x : Except ε α} {f : α → β} {b : β} (h : x.map f = .ok b) :
    ∃ a, x = .ok a ∧ f a = b := by
  cases x with
  | error e => contradiction
  | ok a => exact ⟨a, rfl, Except.ok.inj h⟩

theorem readMember_eq_ok {put : String → Json → List (String × Json) → List (String × Json)}
    {value : Reader Json} {members result : List (String × Json)} {text rest : Bytes}
    (h : readMember put value members text = .ok (result, rest)) :
    ∃ key v after, value after = .ok (v, rest) ∧ result = put key v members := by
  unfold readMember at h
  split at h
  · contradiction
  · next key behind _ =>
      split at h
      · contradiction
      · next after _ =>
          split at h
          · contradiction
          · next v last hvalue =>
              cases h
              exact ⟨key, v, after, hvalue, rfl⟩

-- A value that was read is a leaf, or a container whose contents were read one level further
-- inside.
theorem readValueWith_eq_ok {put : String → Json → List (String × Json) → List (String × Json)}
    {nesting : Nat} {input rest : Bytes} {value : Json}
    (h : readValueWith put nesting input = .ok (value, rest)) :
    value.isLeaf = true ∨
      (∃ inner fuel text items, nesting = inner + 1 ∧ value = array items ∧
        readItems (readValueWith put inner) fuel true text = .ok (items, rest)) ∨
      ∃ inner fuel text members, nesting = inner + 1 ∧ value = object members ∧
        readMembers (readMember put (readValueWith put inner)) fuel true [] text =
          .ok (members, rest) := by
  have hleaf : ∀ {α : Type} {x : Except Fault α} {f : α → Json × Bytes},
      (∀ a, (f a).1.isLeaf = true) → x.map f = .ok (value, rest) → value.isLeaf = true := by
    intro α x f hf hx
    obtain ⟨a, -, ha⟩ := map_eq_ok hx
    simpa [ha] using hf a
  unfold readValueWith at h
  split at h
  · contradiction
  split at h
  · exact .inl (hleaf (fun _ => rfl) h)
  split at h
  · exact .inl (hleaf (fun _ => rfl) h)
  split at h
  · exact .inl (hleaf (fun _ => rfl) h)
  split at h
  · exact .inl (hleaf (fun _ => rfl) h)
  split at h
  · exact .inl (hleaf (fun _ => rfl) h)
  split at h
  · exact .inl (hleaf (fun _ => rfl) h)
  split at h
  · split at h
    · contradiction
    · next inner =>
        split at h
        · contradiction
        · next items after hitems =>
            cases h
            exact .inr (.inl ⟨inner, _, _, items, rfl, rfl, hitems⟩)
  split at h
  · split at h
    · contradiction
    · next inner =>
        split at h
        · contradiction
        · next members after hmembers =>
            cases h
            exact .inr (.inr ⟨inner, _, _, members, rfl, rfl, hmembers⟩)
  · contradiction

theorem canonical_readValue {nesting : Nat} {input rest : Bytes} {value : Json}
    (h : readValue nesting input = .ok (value, rest)) : Canonical value := by
  unfold readValue at h
  induction nesting using Nat.strongRecOn generalizing input value rest with
  | ind nesting ih =>
      rcases readValueWith_eq_ok h with hleaf | ⟨inner, _, _, items, rfl, rfl, hitems⟩ |
        ⟨inner, _, _, members, rfl, rfl, hmembers⟩
      · exact canonical_of_isLeaf hleaf
      · exact .array (readItems_forall (ih inner (Nat.lt_succ_self inner)) hitems)
      · obtain ⟨hkeys, hvalues⟩ := readMembers_preserves
          (P := fun members => Ascending members ∧ ∀ pair ∈ members, Canonical pair.2)
          (fun {gathered _ more _} hgathered hentry => by
            obtain ⟨key, v, after, hvalue, rfl⟩ := readMember_eq_ok hentry
            refine ⟨ascending_member hgathered.1, fun pair hpair => ?_⟩
            rcases mem_member hpair with rfl | hpair
            · exact ih inner (Nat.lt_succ_self inner) hvalue
            · exact hgathered.2 pair hpair)
          ⟨List.Pairwise.nil, fun pair hpair => absurd hpair List.not_mem_nil⟩ hmembers
        exact .object hkeys hvalues

-- Whatever is read is canonical.
theorem canonical_parse {text : Bytes} {value : Json} (h : parse text = .ok value) :
    Canonical value := by
  unfold parse complete at h
  split at h
  · contradiction
  · next a rest hread =>
      split at h
      · cases h
        exact canonical_readValue hread
      · contradiction

end RequestGuard.Json
