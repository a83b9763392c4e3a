/-
# Walks over parent links

Rows carry a key and at most one parent key. The walk from the top lists the rows without a
parent, each followed by the rows below it, one level deeper. It ends whatever the links are,
since it meets a row only on the way down from a root. It lists every row exactly when no
links form a cycle.
-/

import Mathlib.Data.Fintype.EquivFin
import Mathlib.Data.List.Perm.Subperm
import Mathlib.Logic.Relation

namespace Useful.Math.Forest

universe u v w

variable {ρ : Type u} {κ : Type v} {β : Type w}

/-! ## One block for each row -/

/-- The blocks of rows, one after the other, if each row has one. -/
@[grind =]
def collect (block : ρ → Option (List β)) : List ρ → Option (List β)
  | [] => some []
  | row :: rest => do
      let first ← block row
      let others ← collect block rest
      return first ++ others

theorem collect_cons_eq_some {block : ρ → Option (List β)} {row : ρ} {rest : List ρ}
    {out : List β} : collect block (row :: rest) = some out ↔
      ∃ first others, block row = some first ∧ collect block rest = some others ∧
        first ++ others = out := by
  simp [collect, Option.bind_eq_some_iff]

theorem collect_ne_none {block : ρ → Option (List β)} {rows : List ρ}
    (h : ∀ row ∈ rows, block row ≠ none) : collect block rows ≠ none := by
  induction rows with
  | nil => exact Option.some_ne_none _
  | cons row rest ih =>
      obtain ⟨first, hfirst⟩ := Option.ne_none_iff_exists'.mp (h row List.mem_cons_self)
      obtain ⟨others, hothers⟩ := Option.ne_none_iff_exists'.mp
        (ih fun other hmem => h other (List.mem_cons_of_mem _ hmem))
      have hall : collect block (row :: rest) = some (first ++ others) := by
        rw [collect_cons_eq_some]
        exact ⟨first, others, hfirst, hothers, rfl⟩
      rw [hall]
      exact Option.some_ne_none _

theorem mem_collect {block : ρ → Option (List β)} {rows : List ρ} {out : List β}
    (h : collect block rows = some out) {b : β} :
    b ∈ out ↔ ∃ row ∈ rows, ∃ first, block row = some first ∧ b ∈ first := by
  induction rows generalizing out with
  | nil =>
      cases h
      simp
  | cons row rest ih =>
      rw [collect_cons_eq_some] at h
      obtain ⟨first, others, hfirst, hothers, rfl⟩ := h
      rw [List.mem_append, ih hothers, List.exists_mem_cons_iff, hfirst]
      simp

theorem exists_block {block : ρ → Option (List β)} {rows : List ρ} {out : List β}
    (h : collect block rows = some out) {row : ρ} (hrow : row ∈ rows) :
    ∃ first, block row = some first := by
  induction rows generalizing out with
  | nil => cases hrow
  | cons other rest ih =>
      rw [collect_cons_eq_some] at h
      obtain ⟨first, others, hfirst, hothers, -⟩ := h
      cases List.mem_cons.mp hrow with
      | inl heq => exact ⟨first, heq ▸ hfirst⟩
      | inr hrest => exact ih hothers hrest

/-- A property of lists that appending keeps holds of all blocks together. -/
theorem collect_induction {block : ρ → Option (List β)} {P : List β → Prop} (hnil : P [])
    (happend : ∀ xs ys, P xs → P ys → P (xs ++ ys)) {rows : List ρ} {out : List β}
    (hblock : ∀ row ∈ rows, ∀ first, block row = some first → P first)
    (h : collect block rows = some out) : P out := by
  induction rows generalizing out with
  | nil =>
      cases h
      exact hnil
  | cons row rest ih =>
      rw [collect_cons_eq_some] at h
      obtain ⟨first, others, hfirst, hothers, rfl⟩ := h
      exact happend _ _ (hblock row List.mem_cons_self first hfirst)
        (ih (fun other hmem => hblock other (List.mem_cons_of_mem _ hmem)) hothers)

/-- Blocks that share nothing have no repetition together. -/
theorem nodup_collect {block : ρ → Option (List β)} {rows : List ρ} {out : List β}
    (hrows : rows.Nodup) (hblock : ∀ row ∈ rows, ∀ first, block row = some first → first.Nodup)
    (hapart : ∀ row ∈ rows, ∀ other ∈ rows, ∀ first second b, block row = some first →
      block other = some second → b ∈ first → b ∈ second → row = other)
    (h : collect block rows = some out) : out.Nodup := by
  induction rows generalizing out with
  | nil =>
      cases h
      exact List.nodup_nil
  | cons row rest ih =>
      rw [collect_cons_eq_some] at h
      obtain ⟨first, others, hfirst, hothers, rfl⟩ := h
      obtain ⟨hnew, hrest⟩ := List.nodup_cons.mp hrows
      refine List.nodup_append.mpr ⟨hblock row List.mem_cons_self first hfirst, ?_, ?_⟩
      · exact ih hrest (fun other hmem => hblock other (List.mem_cons_of_mem _ hmem))
          (fun a ha b hb => hapart a (List.mem_cons_of_mem _ ha) b (List.mem_cons_of_mem _ hb))
          hothers
      · rintro b hb c hc rfl
        obtain ⟨other, hmem, second, hsecond, hb'⟩ := (mem_collect hothers).mp hc
        have heq := hapart row List.mem_cons_self other (List.mem_cons_of_mem _ hmem) first second
          b hfirst hsecond hb hb'
        exact hnew (heq ▸ hmem)

theorem collect_congr {block block' : ρ → Option (List β)} {rows : List ρ}
    (h : ∀ row ∈ rows, block row = block' row) : collect block rows = collect block' rows := by
  induction rows with
  | nil => rfl
  | cons row rest ih =>
      rw [collect, collect, h row List.mem_cons_self,
        ih fun other hmem => h other (List.mem_cons_of_mem _ hmem)]

theorem collect_map {γ : Type*} (f : β → γ) (block : ρ → Option (List β)) (rows : List ρ) :
    collect (fun row => (block row).map (List.map f)) rows =
      (collect block rows).map (List.map f) := by
  induction rows with
  | nil => rfl
  | cons row rest ih =>
      rw [collect, collect, ih]
      cases block row with
      | none => rfl
      | some first => cases collect block rest <;> simp

/-! ## The walk -/

variable (children : Option κ → List ρ) (key : ρ → κ)

/-- The rows below a key with their depth, as deep as the fuel allows. -/
@[grind =]
def walk : Nat → Option κ → Nat → Option (List (ρ × Nat))
  | 0, _, _ => none
  | fuel + 1, k, depth =>
      collect (fun row => (walk fuel (some (key row)) (depth + 1)).map ((row, depth) :: ·))
        (children k)

variable (rows : List ρ) (parent : ρ → Option κ)

/-- A row and the key of its parent. -/
def Link (a b : κ) : Prop := ∃ row ∈ rows, key row = a ∧ parent row = some b

/-- The keys from a row up to its root. -/
inductive Path : Option κ → List κ → Prop
  | top : Path none []
  | up {row : ρ} {ks : List κ} (mem : row ∈ rows) (above : Path (parent row) ks) :
      Path (some (key row)) (key row :: ks)

/-- A row is another one or below it. -/
inductive Within (c : ρ) : ρ → Prop
  | refl : Within c c
  | down {p row : ρ} (mem : p ∈ rows) (link : parent row = some (key p)) (above : Within c p) :
      Within c row

/-- What rows and children have to do with each other. -/
structure Linked : Prop where
  nodup : (rows.map key).Nodup
  mem_children : ∀ k row, row ∈ children k ↔ row ∈ rows ∧ parent row = k
  nodup_children : ∀ k, (children k).Nodup
  closed : ∀ row ∈ rows, ∀ k, parent row = some k → ∃ p ∈ rows, key p = k

variable {children key rows parent}

theorem Path.unique (hnodup : (rows.map key).Nodup) {k : Option κ} {ks ks' : List κ}
    (h : Path key rows parent k ks) (h' : Path key rows parent k ks') : ks = ks' := by
  induction h generalizing ks' with
  | top =>
      cases h'
      rfl
  | @up row ks mem above ih =>
      generalize hk : some (key row) = k at h'
      cases h' with
      | top => cases hk
      | @up row' ks' mem' above' =>
          have heq : row = row' :=
            List.inj_on_of_nodup_map hnodup mem mem' (Option.some.inj hk)
          subst heq
          rw [ih above']

theorem Path.of_mem {k : Option κ} {ks : List κ} (h : Path key rows parent k ks) {a : κ}
    (hmem : a ∈ ks) : ∃ as, Path key rows parent (some a) as ∧ as.length ≤ ks.length := by
  induction h with
  | top => cases hmem
  | @up row ks mem above ih =>
      cases List.mem_cons.mp hmem with
      | inl heq => exact ⟨_, heq ▸ .up mem above, Nat.le_refl _⟩
      | inr hrest =>
          obtain ⟨as, hpath, hle⟩ := ih hrest
          exact ⟨as, hpath, Nat.le_succ_of_le hle⟩

theorem Path.nodup (hnodup : (rows.map key).Nodup) {k : Option κ} {ks : List κ}
    (h : Path key rows parent k ks) : ks.Nodup := by
  induction h with
  | top => exact List.nodup_nil
  | @up row ks mem above ih =>
      refine List.nodup_cons.mpr ⟨fun hmem => ?_, ih⟩
      -- A second path from the row would be shorter than the first.
      obtain ⟨as, hpath, hle⟩ := above.of_mem hmem
      have heq := hpath.unique hnodup (.up mem above)
      rw [heq] at hle
      exact absurd hle (by simp)

theorem Path.subset {k : Option κ} {ks : List κ} (h : Path key rows parent k ks) :
    ks ⊆ rows.map key := by
  induction h with
  | top => exact List.nil_subset _
  | up mem above ih => exact List.cons_subset.mpr ⟨List.mem_map_of_mem mem, ih⟩

theorem Path.length_le (hnodup : (rows.map key).Nodup) {k : Option κ} {ks : List κ}
    (h : Path key rows parent k ks) : ks.length ≤ rows.length := by
  have hle := (List.subperm_of_subset (h.nodup hnodup) h.subset).length_le
  rwa [List.length_map] at hle

/-- The walk from the end of a path ends with fuel for the rows that are not on it. -/
theorem walk_ne_none (linked : Linked children key rows parent) {fuel : Nat} {k : Option κ}
    {ks : List κ} (path : Path key rows parent k ks) (hfuel : rows.length < fuel + ks.length)
    (depth : Nat) : walk children key fuel k depth ≠ none := by
  induction fuel generalizing k ks depth with
  | zero => exact absurd (path.length_le linked.nodup) (by omega)
  | succ fuel ih =>
      refine collect_ne_none fun row hrow => ?_
      obtain ⟨hmem, hparent⟩ := (linked.mem_children k row).mp hrow
      have hpath : Path key rows parent (some (key row)) (key row :: ks) :=
        .up hmem (hparent ▸ path)
      have hbelow := ih hpath (by rw [List.length_cons]; omega) (depth + 1)
      simpa using hbelow

/-! ## What is listed -/

theorem Within.depth_le (hnodup : (rows.map key).Nodup) {c row : ρ} {cs ks : List κ}
    (h : Within key rows parent c row) (hc : Path key rows parent (some (key c)) cs)
    (hmem : row ∈ rows) (hrow : Path key rows parent (some (key row)) ks) :
    cs.length ≤ ks.length := by
  induction h generalizing ks with
  | refl => rw [hc.unique hnodup hrow]
  | @down p row mem link above ih =>
      generalize hk : some (key row) = k at hrow
      cases hrow with
      | top => cases hk
      | @up row' ks mem' above' =>
          have heq : row = row' := List.inj_on_of_nodup_map hnodup hmem mem' (Option.some.inj hk)
          subst heq
          rw [link] at above'
          exact Nat.le_succ_of_le (ih mem above')

/-- A row has one ancestor on each level. -/
theorem Within.unique (hnodup : (rows.map key).Nodup) {c d row : ρ} {ks : List κ}
    (hc : Within key rows parent c row) (hd : Within key rows parent d row)
    (hmem : row ∈ rows) (hcmem : c ∈ rows) (hdmem : d ∈ rows)
    (hcpath : Path key rows parent (parent c) ks) (hdpath : Path key rows parent (parent d) ks) :
    c = d := by
  -- What is below one of the two is deeper than both.
  have hdeep : ∀ {a b p : ρ}, a ∈ rows → b ∈ rows → p ∈ rows →
      Path key rows parent (parent a) ks → Path key rows parent (parent b) ks →
      Within key rows parent a p → parent b = some (key p) → False := by
    intro a b p ha hb hp hapath hbpath hwithin hlink
    rw [hlink] at hbpath
    have hle := hwithin.depth_le hnodup (.up ha hapath) hp hbpath
    exact absurd hle (by simp)
  induction hc with
  | refl =>
      cases hd with
      | refl => rfl
      | down mem link above => exact (hdeep hdmem hcmem mem hdpath hcpath above link).elim
  | @down p row mem link above ih =>
      cases hd with
      | refl => exact (hdeep hcmem hdmem mem hcpath hdpath above link).elim
      | @down q _ mem' link' above' =>
          have heq : p = q := List.inj_on_of_nodup_map hnodup mem mem'
            (Option.some.inj (link.symm.trans link'))
          subst heq
          exact ih above' mem

theorem Within.trans {c d row : ρ} (h : Within key rows parent d row)
    (hd : Within key rows parent c d) : Within key rows parent c row := by
  induction h with
  | refl => exact hd
  | down mem link above ih => exact .down mem link ih

/-- A walk lists nothing above the depth it begins with. -/
theorem le_of_mem_walk {fuel : Nat} {k : Option κ} {depth : Nat} {out : List (ρ × Nat)}
    (h : walk children key fuel k depth = some out) {entry : ρ × Nat} (hmem : entry ∈ out) :
    depth ≤ entry.2 := by
  induction fuel generalizing k depth out with
  | zero => cases h
  | succ fuel ih =>
      obtain ⟨c, -, block, hblock, hin⟩ := (mem_collect h).mp hmem
      obtain ⟨below, hbelow, rfl⟩ := Option.map_eq_some_iff.mp hblock
      cases List.mem_cons.mp hin with
      | inl heq => rw [heq]
      | inr hrest => exact Nat.le_of_succ_le (ih hbelow hrest)

/-- What a walk lists is below a child of its key, as deep as its path is long. -/
theorem of_mem_walk (linked : Linked children key rows parent) {fuel : Nat} {k : Option κ}
    {ks : List κ} (path : Path key rows parent k ks) {out : List (ρ × Nat)}
    (h : walk children key fuel k ks.length = some out) {row : ρ} {d : Nat}
    (hmem : (row, d) ∈ out) :
    row ∈ rows ∧ (∃ c ∈ children k, Within key rows parent c row) ∧
      ∃ as, Path key rows parent (parent row) as ∧ as.length = d := by
  induction fuel generalizing k ks out with
  | zero => cases h
  | succ fuel ih =>
      obtain ⟨c, hc, block, hblock, hin⟩ := (mem_collect h).mp hmem
      obtain ⟨hcmem, hparent⟩ := (linked.mem_children k c).mp hc
      obtain ⟨below, hbelow, rfl⟩ := Option.map_eq_some_iff.mp hblock
      cases List.mem_cons.mp hin with
      | inl heq =>
          cases heq
          exact ⟨hcmem, ⟨row, hc, .refl⟩, ks, hparent ▸ path, rfl⟩
      | inr hrest =>
          have hpath : Path key rows parent (some (key c)) (key c :: ks) :=
            .up hcmem (hparent ▸ path)
          obtain ⟨hrow, ⟨c', hc', hwithin⟩, hdepth⟩ := ih hpath hbelow hrest
          obtain ⟨-, hlink⟩ := (linked.mem_children _ c').mp hc'
          exact ⟨hrow, ⟨c, hc, hwithin.trans (.down hcmem hlink .refl)⟩, hdepth⟩

/-- A walk lists the children of what it lists. -/
theorem mem_walk_of_parent (linked : Linked children key rows parent) {fuel : Nat}
    {k : Option κ} {depth : Nat} {out : List (ρ × Nat)}
    (h : walk children key fuel k depth = some out) {p row : ρ} {d : Nat} (hmem : (p, d) ∈ out)
    (hrow : row ∈ rows) (hlink : parent row = some (key p)) : (row, d + 1) ∈ out := by
  induction fuel generalizing k depth out with
  | zero => cases h
  | succ fuel ih =>
      obtain ⟨c, hc, block, hblock, hin⟩ := (mem_collect h).mp hmem
      refine (mem_collect h).mpr ⟨c, hc, block, hblock, ?_⟩
      obtain ⟨below, hbelow, rfl⟩ := Option.map_eq_some_iff.mp hblock
      refine List.mem_cons_of_mem _ ?_
      cases List.mem_cons.mp hin with
      | inr hrest => exact ih hbelow hrest
      | inl heq =>
          cases heq
          cases fuel with
          | zero => cases hbelow
          | succ fuel =>
              have hchild := (linked.mem_children _ row).mpr ⟨hrow, hlink⟩
              obtain ⟨first, hfirst⟩ := exists_block hbelow hchild
              obtain ⟨_, -, rfl⟩ := Option.map_eq_some_iff.mp hfirst
              exact (mem_collect hbelow).mpr ⟨row, hchild, _, hfirst, List.mem_cons_self⟩

/-- A walk lists everything below its key. -/
theorem mem_walk_of_within (linked : Linked children key rows parent) {fuel : Nat}
    {k : Option κ} {depth : Nat} {out : List (ρ × Nat)}
    (h : walk children key fuel k depth = some out) {c row : ρ} (hc : c ∈ children k)
    (hrow : row ∈ rows) (hwithin : Within key rows parent c row) : ∃ d, (row, d) ∈ out := by
  induction hwithin with
  | refl =>
      cases fuel with
      | zero => cases h
      | succ fuel =>
          obtain ⟨first, hfirst⟩ := exists_block h hc
          obtain ⟨_, -, rfl⟩ := Option.map_eq_some_iff.mp hfirst
          exact ⟨depth, (mem_collect h).mpr ⟨c, hc, _, hfirst, List.mem_cons_self⟩⟩
  | down mem link above ih =>
      obtain ⟨d, hmem⟩ := ih mem
      exact ⟨d + 1, mem_walk_of_parent linked h hmem hrow link⟩

/-- A walk lists nothing twice. -/
theorem nodup_walk (linked : Linked children key rows parent) {fuel : Nat} {k : Option κ}
    {ks : List κ} (path : Path key rows parent k ks) {out : List (ρ × Nat)}
    (h : walk children key fuel k ks.length = some out) : out.Nodup := by
  induction fuel generalizing k ks out with
  | zero => cases h
  | succ fuel ih =>
      have hpath : ∀ c ∈ children k, Path key rows parent (some (key c)) (key c :: ks) := by
        intro c hc
        obtain ⟨hmem, hparent⟩ := (linked.mem_children k c).mp hc
        exact .up hmem (hparent ▸ path)
      -- What the block of a child lists is below it.
      have hblock : ∀ c ∈ children k, ∀ block, (walk children key fuel (some (key c))
          (ks.length + 1)).map ((c, ks.length) :: ·) = some block → ∀ row d, (row, d) ∈ block →
          row ∈ rows ∧ Within key rows parent c row := by
        intro c hc block heq row d hin
        obtain ⟨hmem, -⟩ := (linked.mem_children k c).mp hc
        obtain ⟨below, hbelow, rfl⟩ := Option.map_eq_some_iff.mp heq
        cases List.mem_cons.mp hin with
        | inl heq =>
            cases heq
            exact ⟨hmem, .refl⟩
        | inr hrest =>
            obtain ⟨hrow, ⟨c', hc', hwithin⟩, -⟩ := of_mem_walk linked (hpath c hc) hbelow hrest
            obtain ⟨-, hlink⟩ := (linked.mem_children _ c').mp hc'
            exact ⟨hrow, hwithin.trans (.down hmem hlink .refl)⟩
      refine nodup_collect (linked.nodup_children k) ?_ ?_ h
      · intro c hc block heq
        obtain ⟨below, hbelow, rfl⟩ := Option.map_eq_some_iff.mp heq
        refine List.nodup_cons.mpr ⟨fun hin => ?_, ih (hpath c hc) hbelow⟩
        exact absurd (le_of_mem_walk hbelow hin) (Nat.not_succ_le_self _)
      · rintro a ha b hb first second ⟨row, d⟩ hfirst hsecond hin hin'
        obtain ⟨hrow, hwithin⟩ := hblock a ha first hfirst row d hin
        obtain ⟨-, hwithin'⟩ := hblock b hb second hsecond row d hin'
        obtain ⟨hamem, haparent⟩ := (linked.mem_children k a).mp ha
        obtain ⟨hbmem, hbparent⟩ := (linked.mem_children k b).mp hb
        exact hwithin.unique linked.nodup hwithin' hrow hamem hbmem (haparent ▸ path)
          (hbparent ▸ path)

/-! ## Blocks -/

variable (key parent) in
/-- Each row stands at the depth given for the children of the key, or in the block of its
parent: after it, one level deeper, with only deeper rows than the parent between. -/
def Nested (k : Option κ) (depth : Nat) (out : List (ρ × Nat)) : Prop :=
  ∀ before row d after, out = before ++ (row, d) :: after →
    (parent row = k ∧ d = depth) ∨
      ∃ front p between, before = front ++ p :: between ∧ parent row = some (key p.1) ∧
        d = p.2 + 1 ∧ ∀ entry ∈ between, p.2 < entry.2

theorem nested_nil (k : Option κ) (depth : Nat) : Nested key parent k depth [] := by
  intro before row d after h
  exact absurd h.symm (by simp)

theorem Nested.append {k : Option κ} {depth : Nat} {xs ys : List (ρ × Nat)}
    (hxs : Nested key parent k depth xs) (hys : Nested key parent k depth ys) :
    Nested key parent k depth (xs ++ ys) := by
  intro before row d after h
  obtain ⟨middle, rfl, hrest⟩ | ⟨middle, hmiddle, hrest⟩ := List.append_eq_append_iff.mp h
  · -- The row is one of the second list.
    obtain hself | ⟨front, p, between, rfl, hp⟩ := hys middle row d after hrest
    · exact .inl hself
    · exact .inr ⟨xs ++ front, p, between, by rw [List.append_assoc], hp⟩
  · cases middle with
    | nil =>
        rw [List.append_nil] at hmiddle
        rw [List.nil_append] at hrest
        obtain hself | ⟨front, p, between, heq, hp⟩ := hys [] row d after hrest.symm
        · exact .inl hself
        · exact absurd heq (by simp)
    | cons first middle =>
        rw [List.cons_append, List.cons.injEq] at hrest
        exact hxs before row d middle (by rw [hmiddle, hrest.1])

/-- A row with the block below it. -/
theorem Nested.block {k : Option κ} {depth : Nat} {c : ρ} {below : List (ρ × Nat)}
    (hc : parent c = k) (hbelow : Nested key parent (some (key c)) (depth + 1) below)
    (hdeeper : ∀ entry ∈ below, depth < entry.2) :
    Nested key parent k depth ((c, depth) :: below) := by
  intro before row d after h
  cases before with
  | nil =>
      cases h
      exact .inl ⟨hc, rfl⟩
  | cons first before =>
      rw [List.cons_append, List.cons.injEq] at h
      obtain ⟨rfl, rfl⟩ := h
      obtain ⟨hrow, rfl⟩ | ⟨front, p, between, rfl, hp⟩ := hbelow before row d after rfl
      · exact .inr ⟨[], (c, depth), before, rfl, hrow, rfl,
          fun entry hmem => hdeeper entry (List.mem_append_left _ hmem)⟩
      · exact .inr ⟨(c, depth) :: front, p, between, rfl, hp⟩

theorem nested_walk (linked : Linked children key rows parent) {fuel : Nat} {k : Option κ}
    {depth : Nat} {out : List (ρ × Nat)} (h : walk children key fuel k depth = some out) :
    Nested key parent k depth out := by
  induction fuel generalizing k depth out with
  | zero => cases h
  | succ fuel ih =>
      refine collect_induction (nested_nil k depth) (fun _ _ => Nested.append) ?_ h
      intro c hc block heq
      obtain ⟨below, hbelow, rfl⟩ := Option.map_eq_some_iff.mp heq
      exact .block ((linked.mem_children k c).mp hc).2 (ih hbelow)
        fun entry hmem => le_of_mem_walk hbelow hmem

/-! ## Cycles -/

theorem Path.climb (hnodup : (rows.map key).Nodup) {a b : κ} {ks : List κ}
    (hlinks : Relation.TransGen (Link key rows parent) a b)
    (h : Path key rows parent (some a) ks) :
    ∃ bs, Path key rows parent (some b) bs ∧ bs.length < ks.length := by
  have hone : ∀ {a b ks}, Link key rows parent a b → Path key rows parent (some a) ks →
      ∃ bs, Path key rows parent (some b) bs ∧ bs.length < ks.length := by
    intro a b ks hlink h
    obtain ⟨row, hrow, rfl, hparent⟩ := hlink
    generalize hk : some (key row) = k at h
    cases h with
    | top => cases hk
    | @up row' ks mem above =>
        have heq : row = row' := List.inj_on_of_nodup_map hnodup hrow mem (Option.some.inj hk)
        subst heq
        exact ⟨ks, hparent ▸ above, Nat.lt_succ_self _⟩
  induction hlinks with
  | single hlink => exact hone hlink h
  | tail _ hlink ih =>
      obtain ⟨bs, hpath, hlt⟩ := ih
      obtain ⟨cs, hpath', hlt'⟩ := hone hlink hpath
      exact ⟨cs, hpath', hlt'.trans hlt⟩

/-- Every row is below a root exactly when no links form a cycle. -/
theorem exists_path_iff (linked : Linked children key rows parent) :
    (∀ row ∈ rows, ∃ ks, Path key rows parent (parent row) ks) ↔
      ∀ row ∈ rows, ¬ Relation.TransGen (Link key rows parent) (key row) (key row) := by
  constructor
  · intro hpaths row hrow hcycle
    obtain ⟨ks, hpath⟩ := hpaths row hrow
    have hself : Path key rows parent (some (key row)) (key row :: ks) := .up hrow hpath
    obtain ⟨bs, hpath', hlt⟩ := hself.climb linked.nodup hcycle
    rw [hpath'.unique linked.nodup hself] at hlt
    exact Nat.lt_irrefl _ hlt
  · intro hacyclic
    -- Ancestors come first in a well-founded order, since there are finitely many rows.
    let Above (p row : {row // row ∈ rows}) : Prop :=
      Relation.TransGen (Link key rows parent) (key row.1) (key p.1)
    have htrans : IsTrans {row // row ∈ rows} Above := ⟨fun _ _ _ hpq hqr => hqr.trans hpq⟩
    have hirrefl : Std.Irrefl Above := ⟨fun row => hacyclic row.1 row.2⟩
    have hfinite : Finite {row // row ∈ rows} :=
      Finite.of_surjective (fun i : Fin rows.length => ⟨rows.get i, rows.get_mem i⟩) fun row => by
        obtain ⟨i, hi⟩ := List.get_of_mem row.2
        exact ⟨i, Subtype.ext hi⟩
    have hwf := Finite.wellFounded_of_trans_of_irrefl Above
    have hpath : ∀ row : {row // row ∈ rows}, ∃ ks, Path key rows parent (parent row.1) ks := by
      intro row
      induction row using hwf.induction with
      | _ row ih =>
          cases hparent : parent row.1 with
          | none => exact ⟨[], .top⟩
          | some k =>
              obtain ⟨p, hp, rfl⟩ := linked.closed row.1 row.2 k hparent
              obtain ⟨ks, hks⟩ := ih ⟨p, hp⟩ (.single ⟨row.1, row.2, rfl, hparent⟩)
              exact ⟨_, .up hp hks⟩
    exact fun row hrow => hpath ⟨row, hrow⟩

theorem exists_within {row : ρ} {ks : List κ} (linked : Linked children key rows parent)
    (hrow : row ∈ rows) (h : Path key rows parent (parent row) ks) :
    ∃ c ∈ children none, Within key rows parent c row := by
  generalize hk : parent row = k at h
  induction h generalizing row with
  | top => exact ⟨row, (linked.mem_children none row).mpr ⟨hrow, hk⟩, .refl⟩
  | @up p ks mem above ih =>
      obtain ⟨c, hc, hwithin⟩ := ih mem rfl
      exact ⟨c, hc, .down mem hk hwithin⟩

/-! ## The whole walk -/

/-- The walk from the top ends, lists each row at most once and in the block of its parent,
and lists all of them exactly when no links form a cycle. -/
theorem walk_top (linked : Linked children key rows parent) :
    ∃ out, walk children key (rows.length + 1) none 0 = some out ∧
      Nested key parent none 0 out ∧
      ((out.map Prod.fst).Perm rows ↔
        ∀ row ∈ rows, ¬ Relation.TransGen (Link key rows parent) (key row) (key row)) := by
  obtain ⟨out, hout⟩ := Option.ne_none_iff_exists'.mp
    (walk_ne_none linked .top (Nat.lt_succ_self _) 0)
  refine ⟨out, hout, nested_walk linked hout, ?_⟩
  rw [← exists_path_iff linked]
  constructor
  · intro hperm row hrow
    obtain ⟨⟨_, d⟩, hmem, rfl⟩ := List.mem_map.mp (hperm.mem_iff.mpr hrow)
    obtain ⟨-, -, ks, hks, -⟩ := of_mem_walk linked Path.top hout hmem
    exact ⟨ks, hks⟩
  · intro hpaths
    have hrows : rows.Nodup := linked.nodup.of_map _
    have hnodup : (out.map Prod.fst).Nodup := by
      refine (nodup_walk linked Path.top hout).map_on ?_
      rintro ⟨row, d⟩ hmem ⟨_, d'⟩ hmem' rfl
      obtain ⟨-, -, ks, hks, rfl⟩ := of_mem_walk linked Path.top hout hmem
      obtain ⟨-, -, ks', hks', rfl⟩ := of_mem_walk linked Path.top hout hmem'
      rw [hks.unique linked.nodup hks']
    refine (List.perm_ext_iff_of_nodup hnodup hrows).mpr fun row => ?_
    constructor
    · intro hmem
      obtain ⟨⟨_, d⟩, hin, rfl⟩ := List.mem_map.mp hmem
      exact (of_mem_walk linked Path.top hout hin).1
    · intro hrow
      obtain ⟨ks, hks⟩ := hpaths row hrow
      obtain ⟨c, hc, hwithin⟩ := exists_within linked hrow hks
      obtain ⟨d, hmem⟩ := mem_walk_of_within linked hout hc hrow hwithin
      exact List.mem_map.mpr ⟨_, hmem, rfl⟩

end Useful.Math.Forest
