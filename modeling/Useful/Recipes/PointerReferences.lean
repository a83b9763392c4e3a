/-
# References as pointers

A checked reference is a well escaped pointer. Both evaluators then take the step that the
built-in action for JSON takes, except on an array that is asked for its `length`: they
answer with a number, where the pointer leads nowhere.
-/

import Useful.Recipes.References

namespace Useful.Recipes

open Useful.Math Useful.Math.JsonPointer Useful.Actions Regex

/-! ## The text of a reference -/

theorem badEscape_of_mem_pointer {text : List Char} (h : text ∈ JSON_POINTER.lang) :
    badEscape text = false := by
  obtain ⟨parts, rfl, hparts⟩ := mem_star.mp h
  refine badEscape_flatten fun part hpart => ?_
  obtain ⟨slash, hslash, token, htoken, rfl⟩ := mem_seq.mp (hparts part hpart)
  rw [mem_letter.mp hslash]
  obtain ⟨pieces, rfl, hpieces⟩ := mem_star.mp htoken
  refine badEscape_append rfl (badEscape_flatten fun piece hpiece => ?_)
  rcases hpieces piece hpiece with ⟨c, hc, rfl⟩ | hzero | hone
  · have htilde : c ≠ '~' := (of_decide_eq_true hc).1
    rw [badEscape_cons_of_ne htilde]
    rfl
  · rw [mem_word.mp hzero]
    rfl
  · rw [mem_word.mp hone]
    rfl

theorem ne_tilde_of_isIdRest {c : Char} (h : isIdRest c = true) : c ≠ '~' := by
  rintro rfl
  cases h

theorem ne_tilde_of_isLower {c : Char} (h : isLower c = true) : c ≠ '~' := by
  rintro rfl
  cases h

theorem reference_wellFormed {text : List Char} (h : REFERENCE.test text = true) :
    ∃ rest, text = '/' :: rest ∧ badEscape rest = false := by
  rcases test_iff.mp h with hinput | hsteps
  · obtain ⟨head, hhead, pointer, hpointer, rfl⟩ := mem_seq.mp hinput
    rw [mem_word.mp hhead]
    exact ⟨"input".toList ++ pointer, rfl,
      badEscape_append (by decide) (badEscape_of_mem_pointer hpointer)⟩
  · obtain ⟨head, hhead, _, hid, rfl⟩ := mem_seq.mp hsteps
    obtain ⟨_, ⟨first, hfirst, rfl⟩, _, hrest, rfl⟩ := mem_seq.mp hid
    obtain ⟨more, hmore, _, htail, rfl⟩ := mem_seq.mp hrest
    obtain ⟨output, houtput, pointer, hpointer, rfl⟩ := mem_seq.mp htail
    rw [mem_word.mp hhead, mem_word.mp houtput]
    have hmore' : badEscape more = false :=
      badEscape_of_not_mem fun hmem => ne_tilde_of_isIdRest ((mem_upTo_cls.mp hmore).2 _ hmem) rfl
    have htail' : badEscape ("/output".toList ++ pointer) = false :=
      badEscape_append (by decide) (badEscape_of_mem_pointer hpointer)
    have hfirst' : badEscape [first] = false := by
      rw [badEscape_cons_of_ne (ne_tilde_of_isLower hfirst)]
      rfl
    exact ⟨"steps/".toList ++ ([first] ++ (more ++ ("/output".toList ++ pointer))), rfl,
      badEscape_append (by decide) (badEscape_append hfirst' (badEscape_append hmore' htail'))⟩

/-! ## Accepted references -/

/-- The names that a pointer goes along. -/
def path (pointer : String) : List String :=
  (tokens pointer.toList).map (String.ofList ∘ unescape)

theorem exists_str_of_validateReference {engine : Engine} {pointer : JsonValue}
    {completed : List String} (h : validateReference engine pointer completed = .ok ⟨⟩) :
    ∃ p, pointer = .str p := by
  cases pointer with
  | str p => exact ⟨p, rfl⟩
  | _ => cases h

/-- An accepted reference is a well escaped text after a slash, and none of its names is
forbidden. -/
theorem wellFormed_of_validateReference {engine : Engine} {p : String} {completed : List String}
    (h : validateReference engine (.str p) completed = .ok ⟨⟩) :
    (∃ rest, p.toList = '/' :: rest ∧ badEscape rest = false) ∧
      ∀ token ∈ tokens p.toList,
        decodePointerSegment engine token = .ok (String.ofList (unescape token)) := by
  rw [validateReference] at h
  obtain ⟨_, htest, h⟩ := bind_eq_ok.mp h
  obtain ⟨_, -, h⟩ := bind_eq_ok.mp h
  refine ⟨reference_wellFormed (Bool.not_eq_false _ ▸ failIf_eq_ok.mp htest), ?_⟩
  intro token htoken
  obtain ⟨name, hname, -⟩ := bind_eq_ok.mp (forM_eq_ok.mp h token htoken)
  rw [hname]
  rw [decodePointerSegment] at hname
  split at hname
  · cases hname
  · exact hname.symm

/-- Then the evaluator goes along own properties. -/
theorem toOption_pointerValue {engine : Engine} {p : String} {completed : List String}
    (h : validateReference engine (.str p) completed = .ok ⟨⟩) (root : JsonValue) :
    (pointerValue engine root p).toOption = (path p).foldlM ownProperty root := by
  obtain ⟨-, hdecode⟩ := wellFormed_of_validateReference h
  rw [pointerValue, toOption_foldlM, path, List.foldlM_map]
  generalize tokens p.toList = names at hdecode
  induction names generalizing root with
  | nil => rfl
  | cons token names ih =>
      rw [List.forall_mem_cons] at hdecode
      rw [List.foldlM_cons, List.foldlM_cons, bind_of_eq_ok hdecode.1, toOption_orFail]
      exact congrArg _ (funext fun next => ih next hdecode.2)

theorem toOption_resolveStep (current : JsonValue) (token : String) :
    (resolveStep current token).toOption = child current token := by
  cases current with
  | arr items =>
      rw [resolveStep, child]
      cases arrayIndex token.toList with
      | none => rfl
      | some index =>
          rw [Option.bind_some]
          simp only
          split
          · rename_i hlarge
            rw [itemAt, if_neg (by omega)]
            rfl
          · exact toOption_orFail
  | obj members => exact toOption_orFail
  | _ => rfl

/-- The built-in action evaluates the pointer. -/
theorem toOption_resolveJsonPointer {p : String} {rest : List Char} (hp : p.toList = '/' :: rest)
    (hrest : badEscape rest = false) (root : JsonValue) :
    (resolveJsonPointer root p).toOption = evaluate root (path p) := by
  have htokens : (rest.splitOn '/').mapM resolveToken = .ok (path p) := by
    rw [path, hp, tokens_cons, mapM_eq_ok, List.forall₂_map_right_iff, List.forall₂_same]
    intro token htoken
    rw [resolveToken, badEscape_of_mem_splitOn rest hrest htoken]
    rfl
  rw [resolveJsonPointer, hp]
  simp only
  rw [bind_of_eq_ok htokens, toOption_foldlM, evaluate]
  exact congrArg (fun step => (path p).foldlM step root)
    (funext fun current => funext fun token => toOption_resolveStep current token)

/-! ## The two walks -/

theorem ownProperty_eq_child {current : JsonValue} {name : String}
    (h : ∀ items, current = .arr items → name ≠ "length") :
    ownProperty current name = child current name := by
  cases current with
  | arr items => rw [ownProperty, if_neg (h items rfl), child]
  | _ => rfl

theorem child_length (items : List JsonValue) : child (.arr items) "length" = none := by
  rw [child, arrayIndex_eq_none (show 'l' ∈ "length".toList by decide) (by decide)]
  rfl

/-- A path goes through an array and ends with its `length`. -/
def EndsAtLength (root : JsonValue) (names : List String) : Prop :=
  ∃ before items, names = before ++ ["length"] ∧ evaluate root before = some (.arr items)

theorem evaluate_cons (root : JsonValue) (name : String) (names : List String) :
    evaluate root (name :: names) = (child root name).bind fun next => evaluate next names :=
  List.foldlM_cons

theorem endsAtLength_cons {root next : JsonValue} {name : String} {names : List String}
    (h : child root name = some next) :
    EndsAtLength root (name :: names) ↔ EndsAtLength next names := by
  constructor
  · rintro ⟨before, items, hnames, hitems⟩
    cases before with
    | nil =>
        obtain rfl : root = .arr items := Option.some.inj hitems
        obtain rfl : name = "length" := (List.cons.inj hnames).1
        rw [child_length] at h
        cases h
    | cons name' before =>
        obtain ⟨rfl, hrest⟩ := List.cons.inj hnames
        rw [evaluate_cons, h, Option.bind_some] at hitems
        exact ⟨before, items, hrest, hitems⟩
  · rintro ⟨before, items, rfl, hitems⟩
    refine ⟨name :: before, items, rfl, ?_⟩
    rw [evaluate_cons, h, Option.bind_some, hitems]

/-- Going along own properties leads where the pointer leads, unless it ends at the `length` of
an array. -/
theorem foldlM_ownProperty_iff (root : JsonValue) (names : List String) :
    names.foldlM ownProperty root = evaluate root names ↔ ¬ EndsAtLength root names := by
  induction names generalizing root with
  | nil =>
      refine iff_of_true rfl ?_
      rintro ⟨before, items, hnames, -⟩
      cases before <;> cases hnames
  | cons name names ih =>
      rw [List.foldlM_cons, evaluate_cons]
      by_cases hlength : ∃ items, root = .arr items ∧ name = "length"
      · obtain ⟨items, rfl, rfl⟩ := hlength
        rw [child_length, ownProperty, if_pos rfl]
        cases names with
        | nil =>
            refine iff_of_false (fun heq => nomatch heq) (not_not.mpr ?_)
            exact ⟨[], items, rfl, rfl⟩
        | cons name' names =>
            refine iff_of_true rfl ?_
            rintro ⟨before, items', hnames, hitems⟩
            cases before with
            | nil => cases hnames
            | cons name'' before =>
                obtain ⟨rfl, -⟩ := List.cons.inj hnames
                rw [evaluate_cons, child_length] at hitems
                cases hitems
      · rw [ownProperty_eq_child fun items hitems hname => hlength ⟨items, hitems, hname⟩]
        cases hchild : child root name with
        | none =>
            refine iff_of_true rfl ?_
            rintro ⟨before, items, hnames, hitems⟩
            cases before with
            | nil =>
                exact hlength ⟨items, Option.some.inj hitems, (List.cons.inj hnames).1⟩
            | cons name' before =>
                obtain ⟨rfl, -⟩ := List.cons.inj hnames
                rw [evaluate_cons, hchild] at hitems
                cases hitems
        | some next => rw [endsAtLength_cons hchild, ← ih next]; rfl

/-- An accepted reference means the same to both, unless it asks for a `length`. -/
theorem pointerValue_agrees_iff {engine : Engine} {p : String} {completed : List String}
    (h : validateReference engine (.str p) completed = .ok ⟨⟩) (root : JsonValue) :
    (pointerValue engine root p).toOption = (resolveJsonPointer root p).toOption ↔
      ¬ AsksLength root p := by
  obtain ⟨⟨rest, hp, hrest⟩, -⟩ := wellFormed_of_validateReference h
  rw [toOption_pointerValue h, toOption_resolveJsonPointer hp hrest]
  exact foldlM_ownProperty_iff root (path p)

/-! ## Accepted templates -/

theorem mem_referencesItems {pointer : JsonValue} {items : List JsonValue} :
    pointer ∈ referencesItems items ↔ ∃ item ∈ items, pointer ∈ references item := by
  induction items with
  | nil => simp [referencesItems]
  | cons item rest ih => rw [referencesItems, List.mem_append, ih, List.exists_mem_cons_iff]

theorem mem_referencesMembers {pointer : JsonValue} {members : List (String × JsonValue)} :
    pointer ∈ referencesMembers members ↔ ∃ m ∈ members, pointer ∈ references m.2 := by
  induction members with
  | nil => simp [referencesMembers]
  | cons m rest ih => rw [referencesMembers, List.mem_append, ih, List.exists_mem_cons_iff]

/-- A swept list of items has had each of them inspected. -/
theorem exists_of_inspectItems {completed : List String} {items : List JsonValue}
    {depth nodes n : Nat} (h : inspectItems completed items depth nodes = .ok n) :
    ∀ item ∈ items, ∃ nodes' n', inspectNode completed item depth nodes' = .ok n' := by
  induction items generalizing nodes with
  | nil => simp
  | cons item rest ih =>
      rw [inspectItems] at h
      obtain ⟨next, hitem, hrest⟩ := bind_eq_ok.mp h
      exact List.forall_mem_cons.mpr ⟨⟨nodes, next, hitem⟩, ih hrest⟩

theorem exists_of_inspectMembers {completed : List String} {members : List (String × JsonValue)}
    {depth nodes n : Nat} (h : inspectMembers completed members depth nodes = .ok n) :
    ∀ m ∈ members, ∃ nodes' n', inspectNode completed m.2 depth nodes' = .ok n' := by
  induction members generalizing nodes with
  | nil => simp
  | cons m rest ih =>
      rw [inspectMembers] at h
      obtain ⟨_, -, h⟩ := bind_eq_ok.mp h
      obtain ⟨next, hchild, hrest⟩ := bind_eq_ok.mp h
      exact List.forall_mem_cons.mpr ⟨⟨nodes, next, hchild⟩, ih hrest⟩

theorem validateReference_of_inspectNode {completed : List String} {template : JsonValue}
    {depth nodes n : Nat} (h : inspectNode completed template depth nodes = .ok n) :
    ∀ pointer ∈ references template, validateReference .recipe pointer completed = .ok ⟨⟩ := by
  induction template using Json.induct generalizing depth nodes n with
  | arr items ih =>
      rw [inspectNode] at h
      obtain ⟨_, -, h⟩ := bind_eq_ok.mp h
      obtain ⟨_, -, h⟩ := bind_eq_ok.mp h
      intro pointer hpointer
      rw [references] at hpointer
      obtain ⟨item, hmem, hpointer⟩ := mem_referencesItems.mp hpointer
      obtain ⟨_, _, hitem⟩ := exists_of_inspectItems h item hmem
      exact ih item hmem hitem pointer hpointer
  | obj members ih =>
      rw [inspectNode] at h
      obtain ⟨_, -, h⟩ := bind_eq_ok.mp h
      obtain ⟨_, -, h⟩ := bind_eq_ok.mp h
      intro pointer hpointer
      rw [references] at hpointer
      cases hreference : referenceOf members with
      | some pointer' =>
          simp only [hreference] at h hpointer
          obtain ⟨_, hvalid, -⟩ := bind_eq_ok.mp h
          rw [List.mem_singleton.mp hpointer]
          exact hvalid
      | none =>
          simp only [hreference] at h hpointer
          obtain ⟨m, hmem, hpointer⟩ := mem_referencesMembers.mp hpointer
          obtain ⟨_, _, hm⟩ := exists_of_inspectMembers h m hmem
          exact ih m hmem hm pointer hpointer
  | _ =>
      intro pointer hpointer
      cases hpointer

theorem forall_of_checkItems {completed : List String} {items : List JsonValue}
    (h : checkItems completed items = .ok ⟨⟩) :
    ∀ item ∈ items, checkNode completed item = .ok ⟨⟩ := by
  induction items with
  | nil => simp
  | cons item rest ih =>
      rw [checkItems] at h
      obtain ⟨_, hitem, hrest⟩ := bind_eq_ok.mp h
      exact List.forall_mem_cons.mpr ⟨hitem, ih hrest⟩

theorem forall_of_checkMembers {completed : List String} {members : List (String × JsonValue)}
    (h : checkMembers completed members = .ok ⟨⟩) :
    ∀ m ∈ members, checkNode completed m.2 = .ok ⟨⟩ := by
  induction members with
  | nil => simp
  | cons m rest ih =>
      rw [checkMembers] at h
      obtain ⟨_, hchild, hrest⟩ := bind_eq_ok.mp h
      exact List.forall_mem_cons.mpr ⟨hchild, ih hrest⟩

theorem validateReference_of_checkNode {completed : List String} {template : JsonValue}
    (h : checkNode completed template = .ok ⟨⟩) :
    ∀ pointer ∈ references template, validateReference .pipeline pointer completed = .ok ⟨⟩ := by
  induction template using Json.induct with
  | arr items ih =>
      rw [checkNode] at h
      intro pointer hpointer
      rw [references] at hpointer
      obtain ⟨item, hmem, hpointer⟩ := mem_referencesItems.mp hpointer
      exact ih item hmem (forall_of_checkItems h item hmem) pointer hpointer
  | obj members ih =>
      rw [checkNode] at h
      intro pointer hpointer
      rw [references] at hpointer
      cases hreference : referenceOf members with
      | some pointer' =>
          simp only [hreference] at h hpointer
          rw [List.mem_singleton.mp hpointer]
          exact h
      | none =>
          simp only [hreference] at h hpointer
          obtain ⟨m, hmem, hpointer⟩ := mem_referencesMembers.mp hpointer
          exact ih m hmem (forall_of_checkMembers h m hmem) pointer hpointer
  | _ =>
      intro pointer hpointer
      cases hpointer

/-- The references of an accepted template are accepted. -/
theorem validateReference_of_accepts {numberText : ℚ → String} {engine : Engine}
    {template : JsonValue} {completed : List String}
    (h : engine.accepts numberText template completed = .ok ⟨⟩) :
    ∀ pointer ∈ references template, validateReference engine pointer completed = .ok ⟨⟩ := by
  cases engine with
  | recipe =>
      obtain ⟨_, hnode, -⟩ := bind_eq_ok.mp h
      exact validateReference_of_inspectNode hnode
  | pipeline =>
      obtain ⟨_, -, h⟩ := bind_eq_ok.mp h
      obtain ⟨_, -, h⟩ := bind_eq_ok.mp h
      exact validateReference_of_checkNode h

/-! ## Expansion -/

theorem expandItems_eq_mapM (engine : Engine) (root : JsonValue) (items : List JsonValue) :
    expandItems engine root items = items.mapM (expandNode engine root) := by
  induction items with
  | nil => rfl
  | cons item rest ih =>
      rw [expandItems, List.mapM_cons, ih]

/-- A member, expanded. -/
def expandMember (engine : Engine) (root : JsonValue) (m : String × JsonValue) :
    Except String (String × JsonValue) := do
  return (m.1, ← expandNode engine root m.2)

theorem expandMembers_eq_mapM (engine : Engine) (root : JsonValue)
    (members : List (String × JsonValue)) :
    expandMembers engine root members = members.mapM (expandMember engine root) := by
  induction members with
  | nil => rfl
  | cons m rest ih =>
      rw [expandMembers, List.mapM_cons, ih, expandMember, bind_assoc]
      rfl

theorem expandMember_eq_ok {engine : Engine} {root : JsonValue} {m m' : String × JsonValue} :
    expandMember engine root m = .ok m' ↔
      m.1 = m'.1 ∧ expandNode engine root m.2 = .ok m'.2 := by
  rw [expandMember, bind_eq_ok]
  constructor
  · rintro ⟨v, hv, heq⟩
    obtain rfl := pure_eq_ok.mp heq
    exact ⟨rfl, hv⟩
  · rintro ⟨hkey, hv⟩
    exact ⟨m'.2, hv, pure_eq_ok.mpr (Prod.ext hkey rfl)⟩

/-- The pointer of a reference node is its only member. -/
theorem referenceOf_eq_some {members : List (String × JsonValue)} {pointer : JsonValue}
    (h : referenceOf members = some pointer) : members = [("$ref", pointer)] := by
  match members with
  | [] => cases h
  | [(key, pointer')] =>
      rw [referenceOf] at h
      split at h
      · rename_i hkey
        rw [hkey, Option.some.inj h]
      · cases h
  | _ :: _ :: _ => cases h

/-- A template is expanded to what replaces its references, and to nothing else. -/
theorem expandNode_eq_ok {engine : Engine} {root template v : JsonValue} :
    expandNode engine root template = .ok v ↔
      Replaces (fun p => (pointerValue engine root p).toOption) template v := by
  induction template using Json.induct generalizing v with
  | null => exact ⟨fun h => Except.ok.inj h ▸ .null, fun h => by cases h; rfl⟩
  | bool b => exact ⟨fun h => Except.ok.inj h ▸ .bool b, fun h => by cases h; rfl⟩
  | num q => exact ⟨fun h => Except.ok.inj h ▸ .num q, fun h => by cases h; rfl⟩
  | str s => exact ⟨fun h => Except.ok.inj h ▸ .str s, fun h => by cases h; rfl⟩
  | arr items ih =>
      rw [expandNode, expandItems_eq_mapM, bind_eq_ok]
      constructor
      · rintro ⟨items', hitems, heq⟩
        obtain rfl := pure_eq_ok.mp heq
        obtain ⟨hlength, hzip⟩ := List.forall₂_iff_zip.mp (mapM_eq_ok.mp hitems)
        refine .array hlength fun pair hpair => ?_
        exact (ih pair.1 (List.of_mem_zip hpair).1).mp (hzip hpair)
      · intro h
        cases h with
        | @array _ items' hlength h =>
            refine ⟨items', mapM_eq_ok.mpr (List.forall₂_iff_zip.mpr ⟨hlength, ?_⟩), rfl⟩
            intro item item' hpair
            exact (ih item (List.of_mem_zip hpair).1).mpr (h (item, item') hpair)
  | obj members ih =>
      cases hreference : referenceOf members with
      | some pointer =>
          obtain rfl := referenceOf_eq_some hreference
          cases pointer with
          | str p =>
              refine ⟨fun h => .reference (toOption_eq_some.mpr h), fun h => ?_⟩
              cases h with
              | reference h => exact toOption_eq_some.mp h
              | object hplain => rw [hreference] at hplain; cases hplain
          | _ =>
              refine ⟨fun h => (nomatch h), fun h => ?_⟩
              cases h with
              | object hplain => rw [hreference] at hplain; cases hplain
      | none =>
          rw [expandNode]
          simp only [hreference]
          rw [expandMembers_eq_mapM, bind_eq_ok]
          constructor
          · rintro ⟨members', hmembers, heq⟩
            obtain rfl := pure_eq_ok.mp heq
            have hall := (mapM_eq_ok.mp hmembers).imp fun m m' h => expandMember_eq_ok.mp h
            obtain ⟨hlength, hzip⟩ := List.forall₂_iff_zip.mp hall
            have hkeys : members.map Prod.fst = members'.map Prod.fst := by
              rw [← List.forall₂_eq_eq_eq, List.forall₂_map_left_iff, List.forall₂_map_right_iff]
              exact hall.imp fun _ _ h => h.1
            refine .object hreference hkeys fun pair hpair => ?_
            exact (ih pair.1 (List.of_mem_zip hpair).1).mp (hzip hpair).2
          · intro h
            cases h with
            | reference => cases hreference
            | @object _ members' _ hkeys h =>
                refine ⟨members', mapM_eq_ok.mpr ?_, rfl⟩
                have hkeys' : List.Forall₂ (fun m m' => m.1 = m'.1) members members' := by
                  rw [← List.forall₂_eq_eq_eq, List.forall₂_map_left_iff,
                    List.forall₂_map_right_iff] at hkeys
                  exact hkeys
                obtain ⟨hlength, hzip⟩ := List.forall₂_iff_zip.mp hkeys'
                refine List.forall₂_iff_zip.mpr ⟨hlength, fun {m m'} hpair => ?_⟩
                exact expandMember_eq_ok.mpr
                  ⟨hzip hpair, (ih m (List.of_mem_zip hpair).1).mpr (h (m, m') hpair)⟩

/-- Replacing depends on the references that occur alone. -/
theorem Replaces.congr {value value' : String → Option JsonValue} {template v : JsonValue}
    (h : Replaces value template v)
    (heq : ∀ p, .str p ∈ references template → value p = value' p) :
    Replaces value' template v := by
  induction h with
  | reference h => exact .reference (heq _ (List.mem_singleton.mpr rfl) ▸ h)
  | array hlength _ ih =>
      refine .array hlength fun pair hpair => ih pair hpair fun p hp => heq p ?_
      rw [references]
      exact mem_referencesItems.mpr ⟨pair.1, (List.of_mem_zip hpair).1, hp⟩
  | object hplain hkeys _ ih =>
      refine .object hplain hkeys fun pair hpair => ih pair hpair fun p hp => heq p ?_
      rw [references]
      simp only [hplain]
      exact mem_referencesMembers.mpr ⟨pair.1, (List.of_mem_zip hpair).1, hp⟩
  | null => exact .null
  | bool b => exact .bool b
  | num q => exact .num q
  | str s => exact .str s

/-- `expandTemplate` answers with what replaces the references, if it is small enough. -/
theorem expandTemplate_eq_ok {numberText : ℚ → String} {engine : Engine}
    {template root v : JsonValue} :
    expandTemplate numberText engine template root = .ok v ↔
      Replaces (fun p => (pointerValue engine root p).toOption) template v ∧
        ∃ bytes ≤ 1048576, engine.measure numberText v = .ok bytes := by
  rw [← expandNode_eq_ok, expandTemplate, bind_eq_ok]
  constructor
  · rintro ⟨expanded, hexpanded, h⟩
    obtain ⟨bytes, hbytes, h⟩ := bind_eq_ok.mp h
    obtain ⟨_, hsmall, h⟩ := bind_eq_ok.mp h
    obtain rfl := pure_eq_ok.mp h
    exact ⟨hexpanded, bytes, not_lt.mp (failIf_eq_ok.mp hsmall), hbytes⟩
  · rintro ⟨hexpanded, bytes, hsmall, hbytes⟩
    refine ⟨v, hexpanded, bind_eq_ok.mpr ⟨bytes, hbytes, bind_eq_ok.mpr ⟨⟨⟩, ?_, rfl⟩⟩⟩
    exact failIf_eq_ok.mpr (not_lt.mpr hsmall)

/-! ## Where both mean the same -/

/-- A reference means what the pointer means. -/
def FollowsPointer (engine : Engine) (root : JsonValue) (p : String) : Prop :=
  (pointerValue engine root p).toOption = (resolveJsonPointer root p).toOption

/-- A template is expanded by what its references mean as pointers. -/
def ExpandsPointers (numberText : ℚ → String) (engine : Engine) (root template : JsonValue) :
    Prop :=
  (∀ p, .str p ∈ references template → FollowsPointer engine root p) ∧
    ∀ v, expandTemplate numberText engine template root = .ok v ↔
      Replaces (fun p => (resolveJsonPointer root p).toOption) template v ∧
        ∃ bytes ≤ 1048576, engine.measure numberText v = .ok bytes

theorem expandsPointers_iff (numberText : ℚ → String) {engine : Engine} {template : JsonValue}
    {completed : List String} (h : engine.accepts numberText template completed = .ok ⟨⟩)
    (root : JsonValue) :
    ExpandsPointers numberText engine root template ↔
      ∀ p, .str p ∈ references template → ¬ AsksLength root p := by
  have hagrees : ∀ p, .str p ∈ references template →
      (FollowsPointer engine root p ↔ ¬ AsksLength root p) := fun p hp =>
    pointerValue_agrees_iff (validateReference_of_accepts h (.str p) hp) root
  constructor
  · intro hexpands p hp
    exact (hagrees p hp).mp (hexpands.1 p hp)
  · intro hasks
    have hfollows : ∀ p, .str p ∈ references template → FollowsPointer engine root p :=
      fun p hp => (hagrees p hp).mpr (hasks p hp)
    refine ⟨hfollows, fun v => ?_⟩
    rw [expandTemplate_eq_ok]
    refine and_congr_left' ⟨fun hv => hv.congr hfollows, fun hv => hv.congr ?_⟩
    exact fun p hp => (hfollows p hp).symm

/-- In both evaluators, an accepted reference means what it means as a pointer, and an accepted
template is expanded by these values and otherwise left as it is, exactly where no reference
asks an array for its `length`. -/
theorem references_follow_pointers_iff (numberText : ℚ → String) (engine : Engine)
    (state : RunState) :
    (∀ p, validateReference engine (.str p) state.completed = .ok ⟨⟩ →
      (FollowsPointer engine state.root p ↔ ¬ AsksLength state.root p)) ∧
    ∀ template, engine.accepts numberText template state.completed = .ok ⟨⟩ →
      (ExpandsPointers numberText engine state.root template ↔
        ∀ p, .str p ∈ references template → ¬ AsksLength state.root p) :=
  ⟨fun _ h => pointerValue_agrees_iff h state.root,
    fun _ h => expandsPointers_iff numberText h state.root⟩

/-- An input of two items. -/
def twoItems : RunState where
  input := .arr [.num 1, .num 2]
  outputs := []

/-- A recipe may ask for the `length` of its input, which is no index. -/
theorem input_length_is_followed :
    ¬ ∀ (engine : Engine) (state : RunState) (p : String),
      validateReference engine (.str p) state.completed = .ok ⟨⟩ →
        FollowsPointer engine state.root p := by
  intro h
  have hfollows := h .recipe twoItems "/input/length" (by decide)
  have hpointer : (pointerValue .recipe twoItems.root "/input/length").toOption = some (.num 2) := by
    rfl
  rw [FollowsPointer, hpointer] at hfollows
  cases hfollows

end Useful.Recipes
