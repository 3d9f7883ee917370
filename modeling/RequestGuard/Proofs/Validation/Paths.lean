import RequestGuard.Proofs.Text.Numeral
import RequestGuard.Proofs.Text.Span
import RequestGuard.Proofs.Validation.Spots

namespace RequestGuard.Json

open Text (Ends append_inj_of_ends ends_mark)

-- A key in which nothing looks like the beginning of another step of a path.
structure PlainKey (key : String) : Prop where
  nonempty : key ≠ ""
  dotless : '.' ∉ key.toList
  bracketless : '[' ∉ key.toList

def PlainKeys (value : Json) : Prop :=
  ∀ members, IsPart (object members) value → ∀ member ∈ members, PlainKey member.1

def isNameChar (c : Char) : Bool :=
  c != '.' && c != '['

-- What a step adds to the path of the container that it leads from.
def Step.mark : Step → List Char
  | item i => '[' :: (Numeral.digits i ++ [']'])
  | member _ key => '.' :: key.toList

def marks (place : List Step) : List Char :=
  place.flatMap Step.mark

variable {value child part piece : Json} {members : List (String × Json)} {step other : Step}
  {place another : List Step} {path key : String} {rest more : List Char} {i j : Nat}

-- Plain keys

theorem PlainKey.isNameChar (h : PlainKey key) : ∀ c ∈ key.toList, isNameChar c = true := by
  intro c hc
  have hdot : c ≠ '.' := fun heq => h.dotless (heq ▸ hc)
  have hbracket : c ≠ '[' := fun heq => h.bracketless (heq ▸ hc)
  simp [Json.isNameChar, hdot, hbracket]

theorem plainKeys_leaf (h : value.isLeaf = true) : PlainKeys value := by
  intro members hmembers
  rw [← (isPart_leaf h).mp hmembers] at h
  contradiction

theorem plainKeys_array {items : List Json} :
    PlainKeys (array items) ↔ ∀ item ∈ items, PlainKeys item := by
  constructor
  · exact fun h item hitem members hmembers =>
      h members (isPart_array.mpr (.inr ⟨item, hitem, hmembers⟩))
  · intro h members hmembers
    obtain ⟨item, hitem, hpart⟩ := (isPart_array.mp hmembers).resolve_left (by simp)
    exact h item hitem members hpart

theorem plainKeys_object : PlainKeys (object members) ↔
    ∀ member ∈ members, PlainKey member.1 ∧ PlainKeys member.2 := by
  constructor
  · intro h member hmember
    refine ⟨h members (isPart_object.mpr (.inl rfl)) member hmember, fun others hothers => ?_⟩
    exact h others (isPart_object.mpr (.inr ⟨member, hmember, hothers⟩))
  · intro h others hothers
    rcases isPart_object.mp hothers with heq | ⟨member, hmember, hpart⟩
    · cases heq
      exact fun member hmember => (h member hmember).1
    · exact (h member hmember).2 others hpart

theorem PlainKeys.of_mem_contents (h : PlainKeys value) (hchild : (step, child) ∈ contents value) :
    PlainKeys child := by
  cases value with
  | array items =>
      obtain ⟨i, -, hitem⟩ := mem_contents_array.mp hchild
      exact plainKeys_array.mp h child (List.mem_of_getElem? hitem)
  | object members =>
      obtain ⟨i, key, -, hmember⟩ := mem_contents_object.mp hchild
      exact (plainKeys_object.mp h _ (List.mem_of_getElem? hmember)).2
  | _ => exact absurd hchild List.not_mem_nil

theorem PlainKeys.of_member (h : PlainKeys (object members))
    (hchild : (.member i key, child) ∈ contents (object members)) : PlainKey key := by
  obtain ⟨j, name, heq, hmember⟩ := mem_contents_object.mp hchild
  cases heq
  exact (plainKeys_object.mp h _ (List.mem_of_getElem? hmember)).1

-- A key stands at one index only.
theorem Ascending.index_unique (h : Ascending members) {one two : Json}
    (hone : members[i]? = some (key, one)) (htwo : members[j]? = some (key, two)) : i = j := by
  obtain ⟨hi, heqi⟩ := List.getElem?_eq_some_iff.mp hone
  obtain ⟨hj, heqj⟩ := List.getElem?_eq_some_iff.mp htwo
  have hne : ∀ m n (hm : m < members.length) (hn : n < members.length), m < n →
      members[m].1 ≠ members[n].1 :=
    fun m n hm hn hlt => ne_of_lt (List.pairwise_iff_getElem.mp h m n hm hn hlt)
  have hsame : members[i].1 = members[j].1 := by rw [heqi, heqj]
  rcases Nat.lt_trichotomy i j with hlt | heq | hgt
  · exact absurd hsame (hne i j hi hj hlt)
  · exact heq
  · exact absurd hsame.symm (hne j i hj hi hgt)

-- The marks of a place

theorem ends_marks (place : List Step) : Ends isNameChar (marks place) := by
  cases place with
  | nil => exact fun c hc => absurd hc (by simp [marks])
  | cons step rest =>
      rw [marks, List.flatMap_cons]
      cases step with
      | item i => exact ends_mark rfl _
      | member i key => exact ends_mark rfl _

theorem marks_ne_nil (step : Step) (place : List Step) : marks (step :: place) ≠ [] := by
  cases step <;> simp [marks, Step.mark]

-- An index ends at its closing bracket.
theorem item_mark_inj (h : (Step.item i).mark ++ rest = (Step.item j).mark ++ more) :
    i = j ∧ rest = more := by
  simp only [Step.mark, List.cons_append, List.append_assoc, List.cons.injEq, true_and,
    List.nil_append] at h
  obtain ⟨hdigits, hrest⟩ := append_inj_of_ends (Numeral.digits_isDigit i)
    (Numeral.digits_isDigit j) (ends_mark (by decide) rest) (ends_mark (by decide) more) h
  exact ⟨Numeral.digits_injective hdigits, List.tail_eq_of_cons_eq hrest⟩

-- A plain key ends where the next step begins.
theorem member_mark_inj {name : String} (hkey : PlainKey key) (hname : PlainKey name)
    (hrest : Ends isNameChar rest) (hmore : Ends isNameChar more)
    (h : (Step.member i key).mark ++ rest = (Step.member j name).mark ++ more) :
    key = name ∧ rest = more := by
  have hletters : key.toList ++ rest = name.toList ++ more := List.tail_eq_of_cons_eq h
  obtain ⟨htext, hbehind⟩ :=
    append_inj_of_ends hkey.isNameChar hname.isNameChar hrest hmore hletters
  exact ⟨String.toList_injective htext, hbehind⟩

-- The steps from one container are told apart by their marks, whatever steps follow.
theorem step_eq_of_marks (hcanonical : Canonical value) (hplain : PlainKeys value)
    {also : Json} (hstep : (step, child) ∈ contents value) (hother : (other, also) ∈ contents value)
    (h : marks (step :: place) = marks (other :: another)) :
    step = other ∧ marks place = marks another := by
  rw [marks, List.flatMap_cons, marks, List.flatMap_cons] at h
  cases value with
  | array items =>
      obtain ⟨i, rfl, -⟩ := mem_contents_array.mp hstep
      obtain ⟨j, rfl, -⟩ := mem_contents_array.mp hother
      obtain ⟨rfl, hrest⟩ := item_mark_inj h
      exact ⟨rfl, hrest⟩
  | object members =>
      obtain ⟨i, key, rfl, hi⟩ := mem_contents_object.mp hstep
      obtain ⟨j, name, rfl, hj⟩ := mem_contents_object.mp hother
      have hkey := hplain.of_member hstep
      have hname := hplain.of_member hother
      obtain ⟨rfl, hrest⟩ :=
        member_mark_inj hkey hname (ends_marks place) (ends_marks another) h
      cases hcanonical with
      | object hkeys _ => exact ⟨by rw [hkeys.index_unique hi hj], hrest⟩
  | _ => exact absurd hstep List.not_mem_nil

theorem place_eq_of_marks (hcanonical : Canonical value) (hplain : PlainKeys value)
    (hpart : At value place part) (hpiece : At value another piece)
    (h : marks place = marks another) : place = another := by
  induction place generalizing value another with
  | nil =>
      cases another with
      | nil => rfl
      | cons other more => exact absurd h.symm (marks_ne_nil other more)
  | cons step rest ih =>
      cases another with
      | nil => exact absurd h (marks_ne_nil step rest)
      | cons other more =>
          obtain ⟨child, hchild, hpart⟩ := at_cons.mp hpart
          obtain ⟨also, halso, hpiece⟩ := at_cons.mp hpiece
          obtain ⟨rfl, hrest⟩ := step_eq_of_marks hcanonical hplain hchild halso h
          -- the step leads to one value only
          obtain rfl : child = also :=
            (at_cons.mpr ⟨child, hchild, .here child⟩ : At value [step] child).unique
              (at_cons.mpr ⟨also, halso, .here also⟩)
          rw [ih (hcanonical.of_mem_contents hchild) (hplain.of_mem_contents hchild) hpart hpiece
            hrest]

-- Below the whole value a path is that of the container with the marks of the steps behind it.

theorem toList_step_pathFrom (hpath : path ≠ "") (step : Step) :
    (step.pathFrom path).toList = path.toList ++ step.mark := by
  cases step with
  | item i => simp [Step.pathFrom, Path.index, Path.display, hpath, Step.mark, decimal]
  | member i key => simp [Step.pathFrom, Path.key, hpath, Step.mark]

theorem step_pathFrom_ne_empty (hpath : path ≠ "") (step : Step) : step.pathFrom path ≠ "" := by
  intro hempty
  have hstep := toList_step_pathFrom hpath step
  rw [hempty] at hstep
  exact hpath (String.toList_eq_nil_iff.mp (List.append_eq_nil_iff.mp hstep.symm).1)

theorem toList_pathFrom (hpath : path ≠ "") (place : List Step) :
    pathFrom path place ≠ "" ∧ (pathFrom path place).toList = path.toList ++ marks place := by
  induction place generalizing path with
  | nil => exact ⟨hpath, (List.append_nil _).symm⟩
  | cons step rest ih =>
      obtain ⟨hne, hrest⟩ := ih (step_pathFrom_ne_empty hpath step)
      refine ⟨hne, hrest.trans ?_⟩
      rw [toList_step_pathFrom hpath, List.append_assoc, marks, marks, List.flatMap_cons]

-- The first step is spelt in its own way: only in front of an index the whole value is named, and
-- no dot stands in front of a key.

theorem pathFrom_item (i : Nat) (place : List Step) :
    pathFrom "" (.item i :: place) ≠ "" ∧
      (pathFrom "" (.item i :: place)).toList = Path.root.toList ++ marks (.item i :: place) := by
  have hfirst : (Step.item i).pathFrom "" = (Step.item i).pathFrom Path.root := rfl
  have hroot : Path.root ≠ "" := by decide
  have hpath : pathFrom "" (.item i :: place) = pathFrom Path.root (.item i :: place) :=
    congrArg (pathFrom · place) hfirst
  rw [hpath]
  exact toList_pathFrom hroot _

theorem pathFrom_member (hkey : key ≠ "") (i : Nat) (place : List Step) :
    pathFrom "" (.member i key :: place) ≠ "" ∧
      '.' :: (pathFrom "" (.member i key :: place)).toList = marks (.member i key :: place) := by
  obtain ⟨hne, htext⟩ := toList_pathFrom hkey place
  have hpath : pathFrom "" (.member i key :: place) = pathFrom key place := rfl
  rw [hpath, htext]
  exact ⟨hne, rfl⟩

theorem pathFrom_cons_ne_empty (hplain : PlainKeys value) (hstep : (step, child) ∈ contents value)
    (place : List Step) : pathFrom "" (step :: place) ≠ "" := by
  cases value with
  | array items =>
      obtain ⟨i, rfl, -⟩ := mem_contents_array.mp hstep
      exact (pathFrom_item i place).1
  | object members =>
      obtain ⟨i, key, rfl, -⟩ := mem_contents_object.mp hstep
      exact (pathFrom_member (hplain.of_member hstep).nonempty i place).1
  | _ => exact absurd hstep List.not_mem_nil

theorem marks_eq_of_pathFrom (hplain : PlainKeys value) {also : Json}
    (hstep : (step, child) ∈ contents value) (hother : (other, also) ∈ contents value)
    (h : pathFrom "" (step :: place) = pathFrom "" (other :: another)) :
    marks (step :: place) = marks (other :: another) := by
  cases value with
  | array items =>
      obtain ⟨i, rfl, -⟩ := mem_contents_array.mp hstep
      obtain ⟨j, rfl, -⟩ := mem_contents_array.mp hother
      have htext : Path.root.toList ++ marks (.item i :: place) =
          Path.root.toList ++ marks (.item j :: another) := by
        rw [← (pathFrom_item i place).2, ← (pathFrom_item j another).2, h]
      exact List.append_cancel_left htext
  | object members =>
      obtain ⟨i, key, rfl, -⟩ := mem_contents_object.mp hstep
      obtain ⟨j, name, rfl, -⟩ := mem_contents_object.mp hother
      have hkey := (hplain.of_member hstep).nonempty
      have hname := (hplain.of_member hother).nonempty
      rw [← (pathFrom_member hkey i place).2, ← (pathFrom_member hname j another).2, h]
  | _ => exact absurd hstep List.not_mem_nil

-- A leaf of a container lies behind a step from it.
theorem At.exists_step (hpart : At value place part) (hcontainer : value.isLeaf = false)
    (hleaf : part.isLeaf = true) :
    ∃ step rest child, place = step :: rest ∧ (step, child) ∈ contents value := by
  cases place with
  | nil =>
      rw [at_nil.mp hpart, hcontainer] at hleaf
      contradiction
  | cons step rest =>
      obtain ⟨child, hchild, -⟩ := at_cons.mp hpart
      exact ⟨step, rest, child, rfl, hchild⟩

-- No two leaves have one path. Only a leaf that is the whole value bears its name, which a key may
-- have too.
theorem place_eq_of_path (hcanonical : Canonical value) (hplain : PlainKeys value)
    (hpart : At value place part) (hleaf : part.isLeaf = true) (hpiece : At value another piece)
    (hother : piece.isLeaf = true)
    (h : Path.display (pathFrom "" place) = Path.display (pathFrom "" another)) :
    place = another := by
  cases hvalue : value.isLeaf with
  | true =>
      have hplace := Validation.place_eq_nil_of_leaf hvalue hpart
      exact hplace.trans (Validation.place_eq_nil_of_leaf hvalue hpiece).symm
  | false =>
      obtain ⟨step, rest, child, rfl, hstep⟩ := hpart.exists_step hvalue hleaf
      obtain ⟨other, more, also, rfl, halso⟩ := hpiece.exists_step hvalue hother
      rw [Path.display, if_neg (pathFrom_cons_ne_empty hplain hstep rest), Path.display,
        if_neg (pathFrom_cons_ne_empty hplain halso more)] at h
      have hmarks := marks_eq_of_pathFrom hplain hstep halso h
      exact place_eq_of_marks hcanonical hplain hpart hpiece hmarks

end RequestGuard.Json
