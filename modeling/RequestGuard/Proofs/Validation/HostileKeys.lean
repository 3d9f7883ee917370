import RequestGuard.Proofs.Validation.Reporting

namespace RequestGuard

namespace Json

variable {value part : Json} {place rest : List Step}

theorem at_append : At value (place ++ rest) part ↔
    ∃ middle, At value place middle ∧ At middle rest part := by
  induction place generalizing value with
  | nil =>
      simp only [List.nil_append, at_nil]
      exact ⟨fun h => ⟨value, rfl, h⟩, fun ⟨_, heq, h⟩ => heq ▸ h⟩
  | cons step place ih =>
      simp only [List.cons_append, at_cons, ih]
      constructor
      · rintro ⟨child, hchild, middle, hmiddle, hpart⟩
        exact ⟨middle, ⟨child, hchild, hmiddle⟩, hpart⟩
      · rintro ⟨middle, ⟨child, hchild, hmiddle⟩, hpart⟩
        exact ⟨child, hchild, middle, hmiddle, hpart⟩

def Step.key? : Step → Option String
  | item _ => none
  | member _ key => some key

end Json

namespace Validation

open Json (At Step shortened)

-- The place that the path of a spot spells out.
def Spot.above : Spot → List Step
  | leaf place _ => place
  | key parent _ _ => parent

-- The keys in the path of a spot.
def Spot.keys (spot : Spot) : List String :=
  spot.above.filterMap Step.key?

mutual

-- Two values that differ only in keys: both spellings of such a key are found fault with, and
-- nothing below it is.
inductive Respelt (detector : Detector) : Json → Json → Prop
  | same (value : Json) : Respelt detector value value
  | array {items others : List Json} (h : RespeltItems detector items others) :
      Respelt detector (.array items) (.array others)
  | object {members others : List (String × Json)} (h : RespeltMembers detector members others) :
      Respelt detector (.object members) (.object others)

inductive RespeltItems (detector : Detector) : List Json → List Json → Prop
  | nil : RespeltItems detector [] []
  | cons {item other : Json} {rest others : List Json} (hitem : Respelt detector item other)
      (hrest : RespeltItems detector rest others) :
      RespeltItems detector (item :: rest) (other :: others)

inductive RespeltMembers (detector : Detector) :
    List (String × Json) → List (String × Json) → Prop
  | nil : RespeltMembers detector [] []
  | value {name : String} {value other : Json} {rest others : List (String × Json)}
      (hvalue : Respelt detector value other) (hrest : RespeltMembers detector rest others) :
      RespeltMembers detector ((name, value) :: rest) ((name, other) :: others)
  | key {name spelling : String} {value : Json} {rest others : List (String × Json)}
      (hname : detector.detects name = true) (hspelling : detector.detects spelling = true)
      (hharmless : ∀ s, Mentions value s → detector.detects s = false)
      (hrest : RespeltMembers detector rest others) :
      RespeltMembers detector ((name, value) :: rest) ((spelling, value) :: others)

end

variable {settings : ValidationSettings} {contentType query : Option String} {body : Bytes}
  {r : Rejection} {detector : Detector}

theorem hits_append (detector : Detector) (found others : List (String × String)) :
    hits detector (found ++ others) = hits detector found ++ hits detector others := by
  rw [hits, List.filter_append, List.map_append, hits, hits]

theorem hits_cons (detector : Detector) (path s : String) (found : List (String × String)) :
    hits detector ((path, s) :: found) =
      (if detector.detects s then [path] else []) ++ hits detector found := by
  simp only [hits, List.filter_cons]
  split <;> rfl

theorem hits_texts_of_harmless {value : Json}
    (h : ∀ s, Mentions value s → detector.detects s = false) (path : String) :
    hits detector (texts path value) = [] :=
  hits_eq_nil.mpr fun s hs => h s ((mem_texts path value s).mp hs)

mutual

-- The report does not depend on how such keys are spelt.
theorem Respelt.hits_eq {value other : Json} (h : Respelt detector value other) (path : String) :
    hits detector (texts path value) = hits detector (texts path other) :=
  match h with
  | .same _ => rfl
  | .array hitems => hitems.hits_eq path 0
  | .object hmembers => hmembers.hits_eq path

theorem RespeltItems.hits_eq {items others : List Json} (h : RespeltItems detector items others)
    (path : String) (n : Nat) :
    hits detector (textsOfItems path n items) = hits detector (textsOfItems path n others) :=
  match h with
  | .nil => rfl
  | .cons hitem hrest => by
    rw [textsOfItems, textsOfItems, hits_append, hits_append, hitem.hits_eq, hrest.hits_eq]

theorem RespeltMembers.hits_eq {members others : List (String × Json)}
    (h : RespeltMembers detector members others) (path : String) :
    hits detector (textsOfMembers path members) = hits detector (textsOfMembers path others) :=
  match h with
  | .nil => rfl
  | .value hvalue hrest => by
    rw [textsOfMembers, textsOfMembers, List.cons_append, List.cons_append, hits_cons, hits_cons,
      hits_append, hits_append, hvalue.hits_eq, hrest.hits_eq]
  | .key hname hspelling hharmless hrest => by
    rw [textsOfMembers, textsOfMembers, List.cons_append, List.cons_append, hits_cons, hits_cons,
      if_pos hname, if_pos hspelling, hits_append, hits_append, hits_texts_of_harmless hharmless,
      hits_texts_of_harmless hharmless, hrest.hits_eq]

end

theorem Spot.IsOf.above {value : Json} {spot : Spot} (h : spot.IsOf value) :
    ∃ part, At value spot.above part := by
  cases spot with
  | leaf place s => exact ⟨_, h⟩
  | key parent i name =>
      obtain ⟨part, hpart⟩ := h
      obtain ⟨middle, hmiddle, -⟩ := Json.at_append.mp hpart
      exact ⟨middle, hmiddle⟩

-- The keys in a path are those of the objects above the text.
theorem Spot.IsOf.key_above {value : Json} {spot : Spot} (h : spot.IsOf value) {name : String}
    (hname : name ∈ spot.keys) :
    ∃ parent i, parent ++ [.member i name] <+: spot.above ∧ (key parent i name).IsOf value := by
  obtain ⟨step, hstep, hkey⟩ := List.mem_filterMap.mp hname
  cases step with
  | item i => contradiction
  | member i key =>
      obtain rfl : key = name := Option.some.inj hkey
      obtain ⟨parent, rest, hsplit⟩ := List.append_of_mem hstep
      obtain ⟨part, hpart⟩ := h.above
      have happend : parent ++ [Step.member i key] ++ rest = spot.above := by
        rw [hsplit, List.append_assoc, List.singleton_append]
      obtain ⟨middle, hmiddle, -⟩ := Json.at_append.mp (happend ▸ hpart)
      exact ⟨parent, i, ⟨rest, happend⟩, middle, hmiddle⟩

-- Two bodies of one kind that differ in such keys only, once the long texts are cut.
def SameButKeys (settings : ValidationSettings) (contentType : Option String)
    (detector : Detector) (body other : Bytes) : Prop :=
  ∃ kind value also, Holds contentType body kind value ∧ Holds contentType other kind also ∧
    Respelt detector (shortened settings value) (shortened settings also)

theorem Searched.unique {found others : List (String × String)}
    (h : Searched settings contentType query body found)
    (hothers : Searched settings contentType query body others) : found = others := by
  cases h with
  | query =>
      cases hothers with
      | query => rfl
      | body hvalue => exact absurd rfl hvalue.1
  | body hvalue =>
      cases hothers with
      | query => exact absurd rfl hvalue.1
      | body halso => rw [hvalue.unique halso]

theorem rejection_of_sameButKeys {other : Bytes} {r' : Rejection}
    (h : validate settings contentType query body = .error r)
    (hcode : r.failure.code = detector.code)
    (hother : validate settings contentType query other = .error r')
    (hcode' : r'.failure.code = detector.code)
    (hsame : SameButKeys settings contentType detector body other) : r' = r := by
  obtain ⟨kind, value, also, hvalue, halso, hrespelt⟩ := hsame
  obtain ⟨found, hfound, rfl, -⟩ := attack_of_rejected h hcode
  obtain ⟨others, hothers, rfl, -⟩ := attack_of_rejected hother hcode'
  rw [hfound.unique (.body hvalue), hothers.unique (.body halso), hits_append, hits_append,
    hrespelt.hits_eq]

-- A key that is found fault with is told by the object that it is a key of. It stands itself in the
-- path of a text only if that text lies below it and is found fault with as well; where nothing
-- below it is, how it is spelt makes no difference to what is told.
theorem hostile_keys_withheld (h : validate settings contentType query body = .error r)
    (hcode : r.failure.code = detector.code) :
    ∃ faults, Finds settings contentType body detector faults ∧
      Names detector (faults.map Spot.path ++ suspectParameters detector query) r ∧
      (∀ parent i name, Stands settings contentType body (.key parent i name) →
        detector.detects name = true →
        Path.keyOf (Json.pathFrom "" parent) ∈ faults.map Spot.path) ∧
      (∀ spot ∈ faults, ∀ name ∈ spot.keys, detector.detects name = true →
        ∃ parent i, Spot.key parent i name ∈ faults ∧
          parent ++ [.member i name] <+: spot.above ∧ detector.detects spot.text = true) ∧
      ∀ other r', validate settings contentType query other = .error r' →
        r'.failure.code = detector.code →
        SameButKeys settings contentType detector body other → r' = r := by
  obtain ⟨found, hfound, hr, -⟩ := attack_of_rejected h hcode
  obtain ⟨faults, hfaults, hhits⟩ := finds_of_searched hfound detector
  refine ⟨faults, hfaults, ?_, fun parent i name hkey hname => ?_,
    fun spot hspot name hmem hname => ?_,
    fun other r' hother hcode' hsame => rejection_of_sameButKeys h hcode hother hcode' hsame⟩
  · rw [hr, hhits]
    exact names_rejection detector _
  · exact List.mem_map.mpr ⟨_, (hfaults.exact _).mpr ⟨hkey, hname⟩, rfl⟩
  · obtain ⟨⟨kind, value, hvalue, hof⟩, htext⟩ := (hfaults.exact spot).mp hspot
    obtain ⟨parent, i, hbelow, hkey⟩ := hof.key_above hmem
    exact ⟨parent, i, (hfaults.exact _).mpr ⟨⟨kind, value, hvalue, hkey⟩, hname⟩, hbelow, htext⟩

-- Two forms with a hostile name each, over the same harmless value, and the same script elsewhere.
theorem hostile_keys_withheld_over_harmless :
    ∃ r r' faults,
      validate {} (some "application/x-www-form-urlencoded") none
        (bytesOf "%3Cscript%3E=1&b=%3Cscript%3E") = .error r ∧
      r.failure.code = Detector.script.code ∧
      validate {} (some "application/x-www-form-urlencoded") none
        (bytesOf "%3Ciframe%3E=1&b=%3Cscript%3E") = .error r' ∧
      r'.failure.code = Detector.script.code ∧
      Finds {} (some "application/x-www-form-urlencoded")
        (bytesOf "%3Cscript%3E=1&b=%3Cscript%3E") .script faults ∧
      Names .script (faults.map Spot.path ++ suspectParameters .script none) r ∧
      r.events = [.scriptDetected "body#key", .scriptDetected "b"] ∧ r' = r := by
  have hrun : (rejected? (validate {} (some "application/x-www-form-urlencoded") none
      (bytesOf "%3Cscript%3E=1&b=%3Cscript%3E"))).map (fun r => (r.failure.code, r.events)) =
        some (Detector.script.code, [.scriptDetected "body#key", .scriptDetected "b"]) := by
    decide +kernel
  have hother : (rejected? (validate {} (some "application/x-www-form-urlencoded") none
      (bytesOf "%3Ciframe%3E=1&b=%3Cscript%3E"))).map (·.failure.code) =
        some Detector.script.code := by
    decide +kernel
  obtain ⟨r, herror, hr⟩ := exists_error_of_rejected? hrun
  obtain ⟨hcode, hevents⟩ := Prod.mk.inj hr
  obtain ⟨r', herror', hcode'⟩ := exists_error_of_rejected? hother
  have hholds : ∀ form name, form ≠ [] → Form.read form = [(name, "1"), ("b", "<script>")] →
      name < "b" → Holds (some "application/x-www-form-urlencoded") form .form
        (.object [(name, .text "1"), ("b", .text "<script>")]) := by
    intro form name hform hpairs hname
    refine ⟨hform, by decide +kernel, ?_⟩
    rw [readBody, hpairs]
    exact congrArg Except.ok (Json.ofMembers_of_ascending (by simpa [Json.Ascending] using hname))
  have hharmless : ∀ s, Mentions (.text "1") s → hasScript s = false := fun s hs => by
    cases (mentions_leaf rfl).mp hs
    decide +kernel
  have hsame : SameButKeys {} (some "application/x-www-form-urlencoded") .script
      (bytesOf "%3Cscript%3E=1&b=%3Cscript%3E") (bytesOf "%3Ciframe%3E=1&b=%3Cscript%3E") :=
    ⟨.form, _, _, hholds _ "<script>" (by decide +kernel) (by decide +kernel) (by decide +kernel),
      hholds _ "<iframe>" (by decide +kernel) (by decide +kernel) (by decide +kernel),
      .object (.key (by decide +kernel) (by decide +kernel) hharmless (.value (.same _) .nil))⟩
  obtain ⟨faults, hfaults, hnames, -, -, hsilent⟩ := hostile_keys_withheld herror hcode
  exact ⟨r, r', faults, herror, hcode, herror', hcode', hfaults, hnames, hevents,
    hsilent _ r' herror' hcode' hsame⟩

-- A script below a name that is one itself: the name stands in a path.
theorem hostile_key_echoed :
    ∃ r, validate {} (some "application/x-www-form-urlencoded") none
        (bytesOf "%3Cscript%3E=%3Cscript%3E") = .error r ∧
      r.failure.code = Detector.script.code ∧
      Stands {} (some "application/x-www-form-urlencoded") (bytesOf "%3Cscript%3E=%3Cscript%3E")
        (.leaf [.member 0 "<script>"] "<script>") ∧
      Spot.keys (.leaf [.member 0 "<script>"] "<script>") = ["<script>"] ∧
      Detector.script.detects "<script>" = true ∧
      Spot.path (.leaf [.member 0 "<script>"] "<script>") = "<script>" ∧
      r.events = [.scriptDetected "body#key", .scriptDetected "<script>"] ∧
      r.failure.fields.map Prod.fst = ["<script>", "body#key"] ∧
      r.failure.internal = "XSS pattern in body#key, <script>" := by
  have hrun : (rejected? (validate {} (some "application/x-www-form-urlencoded") none
      (bytesOf "%3Cscript%3E=%3Cscript%3E"))).map
        (fun r => (r.failure.code, r.events, r.failure.fields.map Prod.fst, r.failure.internal)) =
      some (Detector.script.code, [.scriptDetected "body#key", .scriptDetected "<script>"],
        ["<script>", "body#key"], "XSS pattern in body#key, <script>") := by
    decide +kernel
  have hpairs : Form.read (bytesOf "%3Cscript%3E=%3Cscript%3E") = [("<script>", "<script>")] := by
    decide +kernel
  have hholds : Holds (some "application/x-www-form-urlencoded")
      (bytesOf "%3Cscript%3E=%3Cscript%3E") .form (.object [("<script>", .text "<script>")]) := by
    refine ⟨by decide +kernel, by decide +kernel, ?_⟩
    rw [readBody, hpairs]
    rfl
  obtain ⟨r, herror, hr⟩ := exists_error_of_rejected? hrun
  obtain ⟨hcode, hrest⟩ := Prod.mk.inj hr
  obtain ⟨hevents, hrest⟩ := Prod.mk.inj hrest
  obtain ⟨hfields, hinternal⟩ := Prod.mk.inj hrest
  exact ⟨r, herror, hcode, ⟨.form, _, hholds, .member rfl (.here _)⟩, by decide +kernel,
    by decide +kernel, by decide +kernel, hevents, hfields, hinternal⟩

end Validation

end RequestGuard
