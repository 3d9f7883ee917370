import RequestGuard.Guard.Envelope

namespace RequestGuard

namespace Headers

theorem contains_eq (headers : Headers) (name : String) :
    headers.contains name = !(headers.values name).isEmpty := by
  induction headers with
  | nil => rfl
  | cons header rest ih =>
      by_cases h : header.1 = name
      · simp [contains, values, h]
      · have hne : (header.1 == name) = false := beq_false_of_ne h
        simpa [contains, values, hne] using ih

theorem values_eq_nil {headers : Headers} {name : String} (h : headers.contains name = false) :
    headers.values name = [] := by
  simpa [contains_eq] using h

theorem values_append (headers more : Headers) (name : String) :
    (headers ++ more).values name = headers.values name ++ more.values name := by
  simp [values, List.filter_append]

theorem values_cons (header : String × Bytes) (rest : Headers) (name : String) :
    values (header :: rest) name =
      if header.1 = name then header.2 :: values rest name else values rest name := by
  by_cases h : header.1 = name
  · simp [values, h]
  · simp [values, h]

end Headers

namespace Guard

-- What one header of the old response adds to those that the new one has by then.
def inherit (headers : Headers) (header : String × Bytes) : Headers :=
  if header.1 == "content-length" || headers.contains header.1 then headers
  else headers ++ [header]

theorem headers_withHeadersOf (old new : Response) :
    (withHeadersOf old new).headers = old.headers.foldl inherit new.headers := rfl

theorem values_inherit_of_ne (headers : Headers) {header : String × Bytes} {name : String}
    (h : header.1 ≠ name) : (inherit headers header).values name = headers.values name := by
  unfold inherit
  split
  · rfl
  · rw [Headers.values_append, Headers.values_cons, if_neg h]
    exact List.append_nil _

-- A name that is there is passed over, and so is the length.
theorem inherit_of_passed {headers : Headers} {header : String × Bytes}
    (h : header.1 = "content-length" ∨ headers.contains header.1 = true) :
    inherit headers header = headers := by
  rw [inherit, if_pos]
  simpa using h

theorem values_inherit_self {headers : Headers} {header : String × Bytes}
    (hlength : header.1 ≠ "content-length") (habsent : headers.contains header.1 = false) :
    (inherit headers header).values header.1 = [header.2] := by
  rw [inherit, if_neg (by simp [hlength, habsent]), Headers.values_append,
    Headers.values_eq_nil habsent, Headers.values_cons, if_pos rfl]
  rfl

-- The headers that have been taken over are looked at for the next one, so once a name is there
-- all further values of it are passed over.
theorem values_foldl_inherit (old headers : Headers) (name : String) :
    (old.foldl inherit headers).values name =
      if headers.contains name then headers.values name
      else if name = "content-length" then []
      else (old.values name).take 1 := by
  induction old generalizing headers with
  | nil =>
      cases habsent : headers.contains name with
      | true => rfl
      | false =>
          have hnone := Headers.values_eq_nil habsent
          simpa [Headers.values] using hnone
  | cons header rest ih =>
      rw [List.foldl_cons, ih, Headers.values_cons]
      by_cases hname : header.1 = name
      · subst hname
        rw [if_pos rfl]
        by_cases hpassed : header.1 = "content-length" ∨ headers.contains header.1 = true
        · rw [inherit_of_passed hpassed]
          rcases hpassed with hlength | hthere
          · rw [if_pos hlength, if_pos hlength]
          · rw [if_pos hthere, if_pos hthere]
        · obtain ⟨hlength, habsent⟩ := not_or.mp hpassed
          rw [Bool.not_eq_true] at habsent
          have hself := values_inherit_self hlength habsent
          have hthere : (inherit headers header).contains header.1 = true := by
            rw [Headers.contains_eq, hself]
            rfl
          rw [if_pos hthere, hself, habsent, if_neg (by decide), if_neg hlength]
          rfl
      · rw [if_neg hname, Headers.contains_eq, Headers.contains_eq,
          values_inherit_of_ne headers hname]

-- A response that is told anew keeps its own status, body and headers. Of every other name that
-- the old one had, but for the length, it takes over the first value and no further one.
theorem first_values_inherited (old new : Response) :
    (withHeadersOf old new).status = new.status ∧ (withHeadersOf old new).body = new.body ∧
      ∀ name, (withHeadersOf old new).headers.values name =
        if new.headers.contains name then new.headers.values name
        else if name = "content-length" then []
        else (old.headers.values name).take 1 :=
  ⟨rfl, rfl, fun name => by rw [headers_withHeadersOf, values_foldl_inherit]⟩

-- A bare error with two cookies.
theorem second_cookie_lost :
    let old : Response :=
      { status := 502, headers := [("set-cookie", bytesOf "a=1"), ("set-cookie", bytesOf "b=2")] }
    let new := bareResponse 502 "id" "now"
    isBareError old = true ∧ new.headers.contains "set-cookie" = false ∧
      "set-cookie" ≠ "content-length" ∧
      old.headers.values "set-cookie" = [bytesOf "a=1", bytesOf "b=2"] ∧
      (withHeadersOf old new).headers.values "set-cookie" = [bytesOf "a=1"] := by
  decide +kernel

end Guard

end RequestGuard
