/-
Requirements and expressions agree on what a name is.

The names of further numbers are checked where requirements come in, and the names in an expression
are cut out of a text; both take letters, digits and underscores that do not begin with a digit.  So
a name that requirements may hold is a name that an expression can use, and no other one is.  What
it stands for is told by the fields of the requirements: further numbers hide no built-in name.

* `Expression.Limits.HasRoom` — a name by itself keeps to the limits of a text;
* `Expression.tokenize_eq_variable_iff` — **a text is one variable by its own name if and only if it
  is a name**;
* `Expression.evalText_name` — a name by itself is looked up;
* `Requirements.fault?_eq_none_iff`, `Requirements.fault?_withNumber` — when further numbers are
  accepted;
* `Requirements.number`, `Requirements.lookup_bindings` — **what a name stands for**;
* `Requirements.names_agree` — both sides of the agreement.
-/
import Estimating.Project.Requirements
import Estimating.Proofs.Expression.Places

set_option autoImplicit false

namespace Estimating

/-! ### Texts that are names -/

namespace Expression

variable {bindings : Bindings} {limits : Limits} {name : String}

/-- A name by itself is short enough, and there may be a token. -/
def Limits.HasRoom (limits : Limits) (name : String) : Prop :=
  name.toList.length ≤ limits.maxLength ∧ 1 ≤ limits.maxTokens

/-- A name is one variable. -/
theorem tokenize_of_isName (h : IsName name.toList) (hroom : limits.HasRoom name) :
    tokenize name limits = .ok [⟨.variable name, 0⟩] := by
  have hlongest : Longest name.toList [] :=
    ⟨.name h, fun more hmore _ => List.prefix_nil.1 hmore⟩
  let l : Layout := .lexeme [] name.toList (.blank [])
  have hl : l.Separate := ⟨nofun, hlongest, nofun⟩
  have hchars : l.chars = name.toList := List.append_nil _
  have hword : Means limits name.toList none (.variable name) := by
    have hmeans : Means limits name.toList none _ := .name h nofun
    rwa [String.ofList_toList] at hmeans
  refine (tokenize_eq_ok_iff hl hchars).2 ⟨⟨hroom.1, ?_, ?_⟩, hroom.2, .cons hword .nil, rfl⟩
  · exact hchars ▸ hl.isAllowed
  · exact hchars ▸ hl.exists_mem

/-- **A text is one variable by its own name if and only if it is a name.** -/
theorem tokenize_eq_variable_iff (hroom : limits.HasRoom name) :
    tokenize name limits = .ok [⟨.variable name, 0⟩] ↔ IsName name.toList := by
  refine ⟨fun h => ?_, fun h => tokenize_of_isName h hroom⟩
  obtain ⟨text, next, -, hmeans⟩ := hasLexeme_of_tokenize h _ List.mem_cons_self
  exact hmeans.of_variable.1

/-- A name by itself is looked up. -/
theorem evalText_name (h : IsName name.toList) (hroom : limits.HasRoom name) :
    evalText name bindings limits = lookup bindings name 0 >>= checkResult limits.maxResult := by
  have hcompile : compile name limits = .ok ⟨name, (Tree.name name 0).polish, limits⟩ := by
    rw [compile, tokenize_of_isName h hroom]
    rfl
  rw [evalText, hcompile]
  exact evaluate_polish (.name name 0) limits

end Expression

namespace Requirements

open Expression

/-! ### Further numbers -/

theorem isIdentifier_iff {name : String} : isIdentifier name = true ↔ IsName name.toList := by
  unfold isIdentifier
  split
  · next hnil => simp [hnil, IsName]
  · next c rest hcons =>
      rw [hcons, Bool.and_eq_true, List.all_eq_true]
      exact Iff.rfl

/-- Requirements are accepted if the area is positive and the further numbers have names. -/
theorem fault?_eq_none_iff {r : Requirements} :
    r.fault? = none ↔ .zero < r.area ∧ ∀ name ∈ r.extra, isIdentifier name = true := by
  unfold fault?
  split
  · next harea => exact ⟨nofun, fun h => absurd harea (Decimal.not_le.2 h.1)⟩
  · next harea =>
      rw [Option.map_eq_none_iff, List.find?_eq_none]
      simp only [Table.mem_keys, Bool.not_eq_true', Bool.not_eq_false]
      exact (and_iff_right (Decimal.not_le.1 harea)).symm

/-- Requirements with one more number, or with another one under its name. -/
def withNumber (r : Requirements) (name : String) (x : Decimal) : Requirements :=
  { r with extra := r.extra.insert name x }

/-- A further number is refused for its name only, and then the name is told. -/
theorem fault?_withNumber {r : Requirements} (h : r.fault? = none) (name : String) (x : Decimal) :
    (r.withNumber name x).fault? =
      if isIdentifier name then none else some (.extraName name) := by
  obtain ⟨harea, hextra⟩ := fault?_eq_none_iff.1 h
  split
  · next hname =>
      refine fault?_eq_none_iff.2 ⟨harea, fun name' hmem => ?_⟩
      rcases Std.ExtTreeMap.mem_insert.1 hmem with heq | hmem
      · exact Std.LawfulEqOrd.eq_of_compare heq ▸ hname
      · exact hextra name' hmem
  · next hname =>
      rw [withNumber, fault?, if_neg (Decimal.not_le.2 harea)]
      have hname : (!isIdentifier name) = true := by simpa using hname
      cases hfind : (Table.keys (r.extra.insert name x)).find? fun name => !isIdentifier name with
      | none =>
          have hmem : name ∈ r.extra.insert name x := Std.ExtTreeMap.mem_insert_self
          exact absurd hname (List.find?_eq_none.1 hfind name (Table.mem_keys.2 hmem))
      | some name' =>
          have hnot := List.find?_some hfind
          have hmem := Table.mem_keys.1 (List.mem_of_find?_eq_some hfind)
          rcases Std.ExtTreeMap.mem_insert.1 hmem with heq | hmem
          · obtain rfl := Std.LawfulEqOrd.eq_of_compare heq
            rfl
          · simp [hextra name' hmem] at hnot

/-! ### What names stand for -/

/-- The number that a name by itself stands for, or why it stands for none. -/
def number (r : Requirements) : String → Except Error Decimal
  | "areaM2" => .ok r.area
  | "hasPlumbingWork" => .ok (if r.plumbing then .one else .zero)
  | "hasElectricalWork" => .ok (if r.electrical then .one else .zero)
  | "roomType" => .error (.tag "roomType" 0)
  | "finishLevel" => .error (.tag "finishLevel" 0)
  | name =>
    match r.extra[name]? with
    | some x => .ok x
    | none => .error (.unbound name 0)

/-- The built-in names come first, then those of the further numbers. -/
theorem get_bindings (r : Requirements) (name : String) : r.bindings[name]? =
    if "finishLevel" = name then some (.tag r.finish.name)
    else if "roomType" = name then some (.tag r.room.name)
    else if "hasElectricalWork" = name then some (.ofBool r.electrical)
    else if "hasPlumbingWork" = name then some (.ofBool r.plumbing)
    else if "areaM2" = name then some (.number r.area)
    else r.extra[name]?.map .number := by
  rw [← Table.get_ofList_map_toList, bindings, builtIn, Table.ofList, List.foldl_append]
  simp only [List.foldl_cons, List.foldl_nil]
  rw [Table.get_insert, Table.get_insert, Table.get_insert, Table.get_insert, Table.get_insert]
  rfl

theorem lookup_bindings (r : Requirements) (name : String) :
    lookup r.bindings name 0 = r.number name := by
  unfold number
  split <;> rw [lookup, get_bindings]
  · rfl
  · rfl
  · rfl
  · rfl
  · rfl
  · next harea hplumbing helectrical hroom hfinish =>
      rw [if_neg (Ne.symm hfinish), if_neg (Ne.symm hroom), if_neg (Ne.symm helectrical),
        if_neg (Ne.symm hplumbing), if_neg (Ne.symm harea)]
      cases r.extra[name]? with
      | some x => rfl
      | none => rfl

/-- **Requirements and expressions agree on names.**  A further number is accepted under a name if
and only if the name by itself is one token, the variable of that name, unless it is too long for a
text at all; if it is refused, that name is told.  An expression that is just a name stands for the
floor area, for one or zero where it is one of the two questions, and for a tag, which is an error,
where it is the room or the finish, whatever the further numbers are; any other name stands for the
further number that has it, and for nothing without one. -/
theorem names_agree :
    (∀ (r : Requirements) (name : String) (x : Decimal) (limits : Limits),
      r.fault? = none → limits.HasRoom name →
      ((r.withNumber name x).fault? = none ↔
        tokenize name limits = .ok [⟨.variable name, 0⟩]) ∧
      ((r.withNumber name x).fault? ≠ none →
        (r.withNumber name x).fault? = some (.extraName name))) ∧
    ∀ (r : Requirements) (name : String) (limits : Limits),
      isIdentifier name = true → limits.HasRoom name →
      evalText name r.bindings limits = r.number name >>= checkResult limits.maxResult := by
  constructor
  · intro r name x limits hr hroom
    rw [tokenize_eq_variable_iff hroom, ← isIdentifier_iff, fault?_withNumber hr]
    split
    · next hname => exact ⟨iff_of_true rfl hname, fun h => absurd rfl h⟩
    · next hname => exact ⟨iff_of_false nofun hname, fun _ => rfl⟩
  · intro r name limits hname hroom
    rw [evalText_name (isIdentifier_iff.1 hname) hroom, lookup_bindings]

/-- A bathroom with new pipes, and further numbers that have the names of the area, of the room and
of a function. -/
def pipedBathroom : Requirements where
  room := .bathroom
  finish := .basic
  area := .tenths 155
  plumbing := true
  electrical := false
  extra := Table.ofList [("areaM2", .whole 99), ("roomType", .one), ("min", .whole 3)]

/-- A text with a blank in it names no number; the names of functions do. -/
theorem names_agree_piped :
    pipedBathroom.fault? = none ∧
      (pipedBathroom.withNumber "wall_2" .one).fault? = none ∧
      (pipedBathroom.withNumber "wall 2" .one).fault? = some (.extraName "wall 2") ∧
      evalText "areaM2" pipedBathroom.bindings .standard = .ok (.hundredths 1550) ∧
      evalText "hasPlumbingWork" pipedBathroom.bindings .standard = .ok (.hundredths 100) ∧
      evalText "roomType" pipedBathroom.bindings .standard = .error (.tag "roomType" 0) ∧
      evalText "min" pipedBathroom.bindings .standard = .ok (.hundredths 300) ∧
      evalText "max" pipedBathroom.bindings .standard = .error (.unbound "max" 0) := by
  have hvalid : pipedBathroom.fault? = none := by decide +kernel
  have hroom {name : String} (h : name.toList.length ≤ 512) : Limits.standard.HasRoom name :=
    ⟨h, by decide⟩
  have haccepted := (names_agree.1 pipedBathroom "wall_2" .one .standard hvalid
    (hroom (by decide))).1.2 (by decide +kernel)
  have hrefused := (names_agree.1 pipedBathroom "wall 2" .one .standard hvalid
    (hroom (by decide))).2 (by decide +kernel)
  have hvalue {name : String} (hname : isIdentifier name = true)
      (hlength : name.toList.length ≤ 512) : evalText name pipedBathroom.bindings .standard =
        pipedBathroom.number name >>= checkResult Limits.standard.maxResult :=
    names_agree.2 pipedBathroom name .standard hname (hroom hlength)
  refine ⟨hvalid, haccepted, hrefused, ?_, ?_, ?_, ?_, ?_⟩
  · exact (hvalue (by decide) (by decide)).trans (by decide +kernel)
  · exact (hvalue (by decide) (by decide)).trans (by decide +kernel)
  · exact (hvalue (by decide) (by decide)).trans rfl
  · exact (hvalue (by decide) (by decide)).trans (by decide +kernel)
  · exact (hvalue (by decide) (by decide)).trans (by decide +kernel)

end Requirements
end Estimating
