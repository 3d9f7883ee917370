import RequestGuard.Proofs.Token.Base64
import RequestGuard.Proofs.Token.Decoding
import RequestGuard.Proofs.Wire

namespace RequestGuard

namespace Json

-- The header of a token

theorem readsAs_algorithm {name : String} (h : name ∈ algorithms) :
    ReadsAs readAlgorithm (text name) (text name) := by
  intro rest _
  rw [encode_text, readAlgorithm, skip_cons (by decide)]
  simp [readVariant, skip_cons, isSpace, readText_writeText, h]

-- The registered claims of a payload, which are read a second time

theorem readsAs_looseWord {n : Nat} (h : n ≤ Numeral.maxWord) :
    ReadsAs readLooseWord (nat n) (nat n) := by
  intro rest hrest
  have hread := readsAs_word h rest hrest
  obtain ⟨d, more, hcons, hd⟩ := encode_digits_cons n
  rw [nat, write, encode_natural (Int.natCast_nonneg n), Int.natAbs_natCast, hcons,
    List.cons_append] at hread ⊢
  rw [readLooseWord, skip_cons (isSpace_of_isDigit hd)]
  split
  · next heq => exact absurd (List.cons.inj heq).1 (ne_of_isDigit hd (by decide))
  · next heq => exact absurd (List.cons.inj heq).1 (ne_of_isDigit hd (by decide))
  · rw [hread]

theorem readsAs_looseText (s : String) : ReadsAs readLooseText (text s) (text s) := by
  intro rest hrest
  rw [readLooseText, readsAs_optional refusesNull_text (readsAs_text s) rest hrest]

end Json

namespace Claims

open Json

variable {claims : Claims}

-- The claims that are not registered are looked through.
def unregistered (claims : Claims) : List (String × Json) :=
  present "iat" (claims.issuedAt.map .nat) ++ (present "jti" (claims.id.map .text) ++
    (present "type" (claims.kind.map .text) ++ present "active" (claims.active.map .bool)))

theorem mem_present {name : String} {f : α → Json} {o : Option α} {member : String × Json}
    (h : member ∈ present name (o.map f)) : ∃ a, member = (name, f a) := by
  cases o with
  | none => cases h
  | some a => exact ⟨a, List.mem_singleton.mp h⟩

theorem present_sublist (name : String) (value : Option Json) :
    ((present name value).map Prod.fst).Sublist [name] := by
  cases value with
  | none => exact List.nil_sublist _
  | some v => exact List.Sublist.refl _

theorem unregistered_sublist (claims : Claims) :
    (claims.unregistered.map Prod.fst).Sublist ["iat", "jti", "type", "active"] := by
  simp only [unregistered, List.map_append]
  exact (present_sublist "iat" _).append ((present_sublist "jti" _).append
    ((present_sublist "type" _).append (present_sublist "active" _)))

theorem passedOver_unregistered {member : String × Json} (h : member ∈ claims.unregistered) :
    PassedOver member.2 := by
  simp only [unregistered, List.mem_append] at h
  rcases h with hissued | hid | hkind | hactive
  · obtain ⟨n, rfl⟩ := mem_present hissued
    exact passedOver_nat n
  · obtain ⟨s, rfl⟩ := mem_present hid
    exact passedOver_text s
  · obtain ⟨s, rfl⟩ := mem_present hkind
    exact passedOver_text s
  · obtain ⟨b, rfl⟩ := mem_present hactive
    exact passedOver_flag b

-- The members of the payload, of which the registered ones are taken.
def entries (claims : Claims) : List Json.Entry :=
  [⟨"sub", .text claims.subject, some (.text claims.subject)⟩,
    ⟨"exp", .nat claims.expiry, some (.nat claims.expiry)⟩] ++
    claims.unregistered.map fun member => ⟨member.1, member.2, none⟩

theorem toJson_eq_entries (claims : Claims) :
    claims.toJson = .object (claims.entries.map Json.Entry.member) := by
  simp [toJson, entries, unregistered, Function.comp_def, Json.Entry.member]

theorem pairs_entries (claims : Claims) : claims.entries.flatMap Json.Entry.pairs =
    [("sub", .text claims.subject), ("exp", .nat claims.expiry)] := by
  simp [entries, Json.Entry.pairs, List.flatMap_map]

theorem nodup_entries (claims : Claims) : (claims.entries.map Json.Entry.key).Nodup := by
  have hkeys : claims.entries.map Json.Entry.key =
      ["sub", "exp"] ++ claims.unregistered.map Prod.fst := by
    simp [entries, Function.comp_def]
  rw [hkeys]
  exact .sublist ((List.Sublist.refl _).append claims.unregistered_sublist) (by decide)

theorem readBy_entries (h : claims.InRange) :
    ∀ entry ∈ claims.entries, entry.ReadBy registeredFields := by
  intro entry hentry
  rcases List.mem_append.mp hentry with hregistered | hunregistered
  · rcases List.mem_pair.mp hregistered with rfl | rfl
    · exact ⟨_, rfl, readsAs_looseText _⟩
    · exact ⟨_, rfl, readsAs_looseWord h.1⟩
  · obtain ⟨member, hmember, rfl⟩ := List.mem_map.mp hunregistered
    refine ⟨?_, passedOver_unregistered hmember⟩
    have hname := claims.unregistered_sublist.subset (List.mem_map_of_mem hmember)
    have hunknown : ∀ name ∈ ["iat", "jti", "type", "active"],
        registeredFields.find? (·.name == name) = none := by decide
    exact hunknown _ hname

def registered (claims : Claims) : Json :=
  .object [("exp", .nat claims.expiry), ("nbf", .null), ("sub", .text claims.subject),
    ("iss", .null), ("aud", .null)]

theorem readsAs_registered (h : claims.InRange) :
    ReadsAs (readRecord "struct ClaimsForValidation" registeredFields) claims.toJson
      claims.registered := by
  rw [toJson_eq_entries]
  refine readRecord_entries _ (readBy_entries h) claims.nodup_entries ?_
  rw [pairs_entries]
  rfl

end Claims

namespace Credential

variable {claims : Claims} {check : Expiry}

theorem readPart_written {read : Json.Reader Json} {value shown : Json}
    (h : Json.ReadsAs read shown value) : readPart read (bytesOf shown.written) = .ok value := by
  rw [readPart, Json.complete_written h]
  rfl

theorem decodePart_encode (bytes : Bytes) :
    decodePart (bytesOf (String.ofList (Base64.encode bytes))) = .ok bytes := by
  rw [decodePart, Base64.decode_encode]
  rfl

-- What is minted says the claims, under their own expiry.
theorem says_written (h : claims.InRange) :
    Says (bytesOf claims.toJson.written) claims claims.expiry :=
  .claims (readPart_written (Claims.readsAs_record h)) claims.ofRecord_record
    (readPart_written (Claims.readsAs_registered h))
    (by simp [Claims.registered, Json.get?, Json.lookup])
    (by simp [Claims.registered, Json.get?, Json.lookup, isAudience])

-- The header gives the type and the algorithm, and nothing of the rest.
theorem readHeader_header :
    readHeader (bytesOf (String.ofList (Base64.encode (bytesOf header.written)))) =
      .ok "HS256" := by
  have hread : Json.ReadsAs (Json.readRecord "struct Header" Json.headerFields) header
      (.object [("typ", .text "JWT"), ("alg", .text "HS256"), ("cty", .null), ("jku", .null),
        ("jwk", .null), ("kid", .null), ("x5u", .null), ("x5c", .null), ("x5t", .null),
        ("x5t#S256", .null)]) :=
    Json.readRecord_shown _ (by decide) (.given
      (Json.readsAs_optional Json.refusesNull_text (Json.readsAs_text _))
      (.given (Json.readsAs_algorithm (by decide))
        (.absent rfl (.absent rfl (.absent rfl (.absent rfl (.absent rfl (.absent rfl
          (.absent rfl (.absent rfl .nil))))))))))
  simp only [readHeader, decodePart_encode, bind, Except.bind, readPart_written hread]
  rfl

theorem signed_mint (secret : String) (claims : Claims) :
    Signed secret (mint secret claims) (bytesOf claims.toJson.written) := by
  refine .parts ?_ readHeader_header (decodePart_encode _)
  have hdot (text : List Char) : Utf8.encode ('.' :: text) = 0x2E :: Utf8.encode text := rfl
  simp only [mint, Utf8.bytesOf_ofList, Utf8.encode_append, hdot]

-- What is minted is read with the same secret, unless its expiry is held against it.
theorem read_mint (secret : String) (h : claims.InRange)
    (hcheck : check.check claims.expiry = .ok ()) :
    read secret check (mint secret claims) = .ok claims :=
  read_eq_ok_iff.mpr ⟨_, _, signed_mint secret claims, says_written h, hcheck⟩

end Credential

end RequestGuard
