import Mathlib.Data.List.Chain
import Mathlib.Data.List.Dedup
import Mathlib.Data.List.Perm.Basic

-- When the members of several groups can be seated in a row: beside a member of another group there
-- are only social ones.
namespace Seating

variable {α κ : Type} [DecidableEq κ] {group : α → κ} {social : α → Bool}

def Beside (group : α → κ) (social : α → Bool) (x y : α) : Prop :=
  group x = group y ∨ social x ∧ social y

def members (group : α → κ) (k : κ) (xs : List α) : List α :=
  xs.filter (group · = k)

-- A group that has only one member to introduce those that are not social.
def Lone (group : α → κ) (social : α → Bool) (xs : List α) (k : κ) : Prop :=
  (∃ x ∈ xs, group x = k ∧ social x = false) ∧ ((members group k xs).filter social).length = 1

variable {x y : α} {k : κ} {xs l l₁ l₂ : List α}

theorem mem_members : x ∈ members group k xs ↔ x ∈ xs ∧ group x = k := by
  simp [members]

theorem Lone.of_perm (h : l.Perm xs) (hk : Lone group social xs k) : Lone group social l k := by
  obtain ⟨⟨x, hx, hg, hs⟩, hlen⟩ := hk
  exact ⟨⟨x, h.mem_iff.mpr hx, hg, hs⟩, ((h.filter _).filter _).length_eq.trans hlen⟩

-- A list is made of its groups.
theorem flatMap_members {ks : List κ} (hn : ks.Nodup) (h : ∀ x ∈ xs, group x ∈ ks) :
    (ks.flatMap fun k => members group k xs).Perm xs := by
  induction ks generalizing xs with
  | nil =>
    have hxs : xs = [] := List.eq_nil_iff_forall_not_mem.mpr fun x hx => nomatch h x hx
    rw [hxs]
    exact .refl _
  | cons k ks ih =>
    have ⟨hk, hn⟩ := List.nodup_cons.mp hn
    have hrest : (ks.flatMap fun k => members group k xs) =
        ks.flatMap fun k' => members group k' (xs.filter fun x => !decide (group x = k)) := by
      refine List.flatMap_congr fun k' hk' => ?_
      rw [members, members, List.filter_filter]
      refine List.filter_congr fun x _ => ?_
      by_cases hx : group x = k'
      case pos => simp [hx, show k' ≠ k from fun he => hk (he ▸ hk')]
      case neg => simp [hx]
    have hks : ∀ x ∈ xs.filter fun x => !decide (group x = k), group x ∈ ks := by
      intro x hx
      have ⟨hx, hne⟩ := List.mem_filter.mp hx
      exact (List.mem_cons.mp (h x hx)).resolve_left (by simpa using hne)
    rw [List.flatMap_cons, hrest]
    exact ((ih hn hks).append_left _).trans (List.filter_append_perm ..)

theorem members_flatMap {row : κ → List α} {ks : List κ} (hn : ks.Nodup)
    (h : ∀ k, ∀ x ∈ row k, group x = k) :
    members group k (ks.flatMap row) = if k ∈ ks then row k else [] := by
  induction ks with
  | nil           => rfl
  | cons k' ks ih =>
    have ⟨hk, hn⟩ := List.nodup_cons.mp hn
    have happend : members group k (row k' ++ ks.flatMap row) =
        members group k (row k') ++ members group k (ks.flatMap row) := List.filter_append ..
    rw [List.flatMap_cons, happend, ih hn]
    by_cases he : k = k'
    case pos =>
      have hall : members group k (row k') = row k' :=
        List.filter_eq_self.mpr fun x hx => decide_eq_true ((h k' x hx).trans he.symm)
      rw [hall, if_neg (he ▸ hk), if_pos (he ▸ List.mem_cons_self ..), List.append_nil, he]
    case neg =>
      have hnone : members group k (row k') = [] :=
        List.filter_eq_nil_iff.mpr fun x hx => by simpa [h k' x hx] using Ne.symm he
      rw [hnone, List.nil_append]
      simp only [List.mem_cons, he, false_or]

section Rows

-- Only social members stand at the ends where a row is open.
def Opens (social : α → Bool) (l : List α) : Prop :=
  ∀ x ∈ l.head?, social x

def Closes (social : α → Bool) (l : List α) : Prop :=
  ∀ x ∈ l.getLast?, social x

omit [DecidableEq κ] in
theorem chain_append (h₁ : l₁.IsChain (Beside group social)) (h₂ : l₂.IsChain (Beside group social))
    (hc : Closes social l₁) (ho : Opens social l₂) : (l₁ ++ l₂).IsChain (Beside group social) :=
  List.isChain_append.mpr ⟨h₁, h₂, fun x hx y hy => .inr ⟨hc x hx, ho y hy⟩⟩

theorem Opens.append_left (h : Opens social l₁) (hne : l₁ ≠ []) : Opens social (l₁ ++ l₂) := by
  cases l₁
  case nil  => exact absurd rfl hne
  case cons => exact h

theorem Closes.append_right (h : Closes social l₂) (hne : l₂ ≠ []) : Closes social (l₁ ++ l₂) := by
  intro x hx
  rw [List.getLast?_append] at hx
  cases hl : l₂.getLast?
  case none   => exact absurd (List.getLast?_eq_none_iff.mp hl) hne
  case some y => exact h x (by simpa [hl] using hx)

theorem Opens.append (h₁ : Opens social l₁) (h₂ : Opens social l₂) : Opens social (l₁ ++ l₂) := by
  by_cases hne : l₁ = []
  case pos => rwa [hne, List.nil_append]
  case neg => exact h₁.append_left hne

theorem Closes.append (h₁ : Closes social l₁) (h₂ : Closes social l₂) :
    Closes social (l₁ ++ l₂) := by
  by_cases hne : l₂ = []
  case pos => rwa [hne, List.append_nil]
  case neg => exact h₂.append_right hne

theorem Opens.of_all (h : ∀ x ∈ l, social x) : Opens social l :=
  fun _ hx => h _ (List.mem_of_mem_head? hx)

theorem Closes.of_all (h : ∀ x ∈ l, social x) : Closes social l :=
  fun _ hx => h _ (List.mem_of_mem_getLast? hx)

-- A row that can stand between others.
structure Between (group : α → κ) (social : α → Bool) (l : List α) : Prop where
  chain  : l.IsChain (Beside group social)
  opens  : Opens social l
  closes : Closes social l

omit [DecidableEq κ] in
theorem Between.flatMap {row : κ → List α} {ks : List κ}
    (h : ∀ k ∈ ks, Between group social (row k)) : Between group social (ks.flatMap row) := by
  induction ks with
  | nil          => exact ⟨.nil, nofun, nofun⟩
  | cons k ks ih =>
    have ⟨hk, h⟩ := List.forall_mem_cons.mp h
    have ih := ih h
    rw [List.flatMap_cons]
    exact ⟨chain_append hk.chain ih.chain hk.closes ih.opens, hk.opens.append ih.opens,
      hk.closes.append ih.closes⟩

theorem chain_of_members (h : l.Perm (members group k xs)) : l.IsChain (Beside group social) := by
  refine List.Pairwise.isChain (List.pairwise_of_forall_mem_list fun x hx y hy => .inl ?_)
  have hk (x) (hx : x ∈ l) : group x = k := (mem_members.mp (h.mem_iff.mp hx)).right
  exact (hk x hx).trans (hk y hy).symm

def unsocial (social : α → Bool) (l : List α) : List α :=
  l.filter fun x => !social x

theorem perm_unsocial : (l.filter social ++ unsocial social l).Perm l :=
  List.filter_append_perm ..

theorem social_filter : ∀ x ∈ l.filter social, social x :=
  fun _ hx => (List.mem_filter.mp hx).right

-- A group that is not lone can stand between others.
theorem between_members (hs : ∀ x ∈ xs, ∃ y ∈ xs, group y = group x ∧ social y)
    (hk : ¬Lone group social xs k) :
    ∃ l, l.Perm (members group k xs) ∧ Between group social l := by
  have hp := @perm_unsocial _ social (members group k xs)
  by_cases hu : unsocial social (members group k xs) = []
  case pos =>
    rw [hu, List.append_nil] at hp
    exact ⟨_, hp, chain_of_members hp, .of_all social_filter, .of_all social_filter⟩
  have ⟨u, hm⟩ := List.exists_mem_of_ne_nil _ hu
  have ⟨hm, hus⟩ := List.mem_filter.mp hm
  have ⟨hux, hug⟩ := mem_members.mp hm
  have ⟨s, hsx, hsg, hss⟩ := hs u hux
  have hmem : s ∈ (members group k xs).filter social :=
    List.mem_filter.mpr ⟨mem_members.mpr ⟨hsx, hsg.trans hug⟩, hss⟩
  have hall := @social_filter _ social (members group k xs)
  -- The first of the social members opens the row and the others close it.
  match hl : (members group k xs).filter social with
  | []              => exact absurd hmem (hl ▸ List.not_mem_nil)
  | [t]             => exact absurd ⟨⟨u, hux, hug, by simpa using hus⟩, by rw [hl]; rfl⟩ hk
  | t :: t' :: rest =>
    rw [hl] at hall hp
    have ⟨ht, hrest⟩ := List.forall_mem_cons.mp hall
    have hp : ([t] ++ unsocial social (members group k xs) ++ t' :: rest).Perm
        (members group k xs) := (List.perm_append_comm.cons t).trans hp
    refine ⟨_, hp, chain_of_members hp, ?_, ?_⟩
    · rw [List.append_assoc]
      exact Opens.append_left (.of_all (List.forall_mem_singleton.mpr ht)) nofun
    · exact Closes.append_right (.of_all hrest) nofun

end Rows

section Seats

-- All of a row belong to a group if one of them does and its members are not social.
omit [DecidableEq κ] in
theorem group_of_unsocial (h : l.IsChain (Beside group social))
    (hk : ∀ x ∈ l, group x = k → social x = false) (hx : x ∈ l) (hg : group x = k) (hy : y ∈ l) :
    group y = k := by
  induction l generalizing x y with
  | nil => exact nomatch hx
  | cons z l ih =>
    have ⟨hz, hk⟩ := List.forall_mem_cons.mp hk
    match l with
    | []     =>
      rw [List.mem_singleton] at hx hy
      rw [hy, ← hx, hg]
    | w :: l =>
      have ⟨hb, h⟩ := List.isChain_cons_cons.mp h
      have hw := hk w (List.mem_cons_self ..)
      have hiff : group z = k ↔ group w = k := by
        rcases hb with hb | ⟨hsz, hsw⟩
        · rw [hb]
        · exact ⟨fun hg => absurd (hz hg) (by simp [hsz]), fun hg => absurd (hw hg) (by simp [hsw])⟩
      have hgw : group w = k := by
        rcases List.mem_cons.mp hx with rfl | hx
        · exact hiff.mp hg
        · exact ih h hk hx hg (List.mem_cons_self ..)
      rcases List.mem_cons.mp hy with rfl | hy
      · exact hiff.mpr hgw
      · exact ih h hk (List.mem_cons_self ..) hgw hy

-- Where a row goes from one group to another there is a social member.
theorem exists_social (h : l.IsChain (Beside group social)) (hx : x ∈ l) (hy : y ∈ l)
    (hne : group y ≠ group x) : ∃ z ∈ l, group z = group x ∧ social z := by
  by_contra hno
  refine hne (group_of_unsocial h (fun z hz hg => ?_) hx rfl hy)
  by_contra hs
  exact hno ⟨z, hz, hg, by simpa using hs⟩

-- A lone group stands at an end.
theorem lone_end (h : l.IsChain (Beside group social)) (hk : Lone group social l k) :
    (∃ x ∈ l.head?, group x = k) ∨ ∃ x ∈ l.getLast?, group x = k := by
  obtain ⟨⟨u, hu, rfl, hus⟩, hlen⟩ := hk
  obtain ⟨l₁, l₂, rfl⟩ := List.append_of_mem hu
  by_contra hno
  have ⟨hhead, hlast⟩ := not_or.mp hno
  have hother {z} (hz : group z = group u ∧ social z) : z ≠ u := by
    rintro rfl
    exact absurd hz.right (by simp [hus])
  have hbefore : ∃ z ∈ l₁, group z = group u ∧ social z := by
    match l₁ with
    | []      => exact absurd ⟨u, rfl, rfl⟩ hhead
    | a :: l₁ =>
      have ha : group a ≠ group u := fun he => hhead ⟨a, rfl, he⟩
      have h : ((a :: l₁) ++ [u]).IsChain (Beside group social) := by
        rw [List.append_cons] at h
        exact h.left_of_append
      have ⟨z, hz, hs⟩ := exists_social h (x := u) (y := a) (by simp) (by simp) ha
      exact ⟨z, (List.mem_append.mp hz).resolve_right (by simpa using hother hs), hs⟩
  have hbehind : ∃ z ∈ l₂, group z = group u ∧ social z := by
    rcases List.eq_nil_or_concat l₂ with rfl | ⟨l₂, b, rfl⟩
    · exact absurd ⟨u, by simp, rfl⟩ hlast
    · have hb : group b ≠ group u := fun he => hlast ⟨b, by simp [List.getLast?_cons], he⟩
      have ⟨z, hz, hs⟩ := exists_social h.right_of_append (x := u) (y := b) (by simp) (by simp) hb
      exact ⟨z, (List.mem_cons.mp hz).resolve_left (hother hs), hs⟩
  have hpos {l : List α} (h : ∃ z ∈ l, group z = group u ∧ social z) :
      0 < ((members group (group u) l).filter social).length := by
    obtain ⟨z, hz, hg, hs⟩ := h
    exact List.length_pos_of_mem (List.mem_filter.mpr ⟨mem_members.mpr ⟨hz, hg⟩, hs⟩)
  have hcount : ((members group (group u) (l₁ ++ u :: l₂)).filter social).length =
      ((members group (group u) l₁).filter social).length +
        ((members group (group u) l₂).filter social).length := by
    simp [members, hus]
  have := hpos hbefore
  have := hpos hbehind
  omega

-- Two groups can stand at the ends, where they need one social member only.
theorem seat_of_lone {a b : κ} (hs : ∀ x ∈ xs, ∃ y ∈ xs, group y = group x ∧ social y)
    (hab : ∀ k, Lone group social xs k → k = a ∨ k = b) :
    ∃ l, List.Perm l xs ∧ l.IsChain (Beside group social) := by
  have hempty (k : κ) (h : (members group k xs).filter social = []) : members group k xs = [] := by
    refine List.eq_nil_iff_forall_not_mem.mpr fun x hx => ?_
    have ⟨hx, hg⟩ := mem_members.mp hx
    have ⟨y, hy, hyg, hys⟩ := hs x hx
    exact List.not_mem_nil (h ▸ List.mem_filter.mpr ⟨mem_members.mpr ⟨hy, hyg.trans hg⟩, hys⟩)
  let first := unsocial social (members group a xs) ++ (members group a xs).filter social
  let last := (members group b xs).filter social ++ unsocial social (members group b xs)
  have hfirst : first.Perm (members group a xs) := List.perm_append_comm.trans perm_unsocial
  have hlast : last.Perm (members group b xs) := perm_unsocial
  have hcloses : Closes social first := by
    by_cases h : (members group a xs).filter social = []
    case pos =>
      have hnil : first = [] := (hempty a h ▸ hfirst).eq_nil
      rw [hnil]
      exact nofun
    case neg => exact Closes.append_right (.of_all social_filter) h
  have hopens : Opens social last := by
    by_cases h : (members group b xs).filter social = []
    case pos =>
      have hnil : last = [] := (hempty b h ▸ hlast).eq_nil
      rw [hnil]
      exact nofun
    case neg => exact Opens.append_left (.of_all social_filter) h
  have hrow (k : κ) : ∃ l, k ≠ a → k ≠ b →
      List.Perm l (members group k xs) ∧ Between group social l := by
    by_cases hk : Lone group social xs k
    case pos => exact ⟨[], fun ha hb => ((hab k hk).elim ha hb).elim⟩
    case neg =>
      have ⟨l, h⟩ := between_members hs hk
      exact ⟨l, fun _ _ => h⟩
  choose row hrow using hrow
  let ks := (xs.map group).dedup.filter fun k => k ≠ a ∧ k ≠ b
  have hks (k) (hk : k ∈ ks) : k ≠ a ∧ k ≠ b := by simpa using (List.mem_filter.mp hk).right
  have hn : ks.Nodup := (List.nodup_dedup _).filter _
  have hmid : (ks.flatMap row).Perm (ks.flatMap fun k => members group k xs) :=
    List.Perm.flatMap_left ks fun k hk => (hrow k (hks k hk).left (hks k hk).right).left
  have hbetween : Between group social (ks.flatMap row) :=
    .flatMap fun k hk => (hrow k (hks k hk).left (hks k hk).right).right
  have hfront : (first ++ ks.flatMap row).IsChain (Beside group social) :=
    chain_append (chain_of_members hfirst) hbetween.chain hcloses hbetween.opens
  have hmem {x} (hx : x ∈ xs) (ha : group x ≠ a) (hb : group x ≠ b) : group x ∈ ks := by
    simp only [ks, List.mem_filter, List.mem_dedup, decide_eq_true_eq]
    exact ⟨List.mem_map_of_mem hx, ha, hb⟩
  have hn : (a :: ks).Nodup := List.nodup_cons.mpr ⟨fun h => (hks a h).left rfl, hn⟩
  by_cases he : b = a
  case pos =>
    have hall : ∀ x ∈ xs, group x ∈ a :: ks := by
      intro x hx
      by_cases ha : group x = a
      · exact ha ▸ List.mem_cons_self ..
      · exact List.mem_cons_of_mem _ (hmem hx ha (he ▸ ha))
    exact ⟨_, (hfirst.append hmid).trans (flatMap_members hn hall), hfront⟩
  case neg =>
    have hn : (b :: a :: ks).Nodup := by
      refine List.nodup_cons.mpr ⟨fun h => ?_, hn⟩
      exact (List.mem_cons.mp h).elim he fun h => (hks b h).right rfl
    have hall : ∀ x ∈ xs, group x ∈ b :: a :: ks := by
      intro x hx
      by_cases hb : group x = b
      · exact hb ▸ List.mem_cons_self ..
      by_cases ha : group x = a
      · exact List.mem_cons_of_mem _ (ha ▸ List.mem_cons_self ..)
      · exact List.mem_cons_of_mem _ (List.mem_cons_of_mem _ (hmem hx ha hb))
    have hp := List.perm_append_comm.trans (hlast.append (hfirst.append hmid))
    exact ⟨_, hp.trans (flatMap_members hn hall),
      chain_append hfront (chain_of_members hlast) (hcloses.append hbetween.closes) hopens⟩

-- All of the members can be seated in a row iff they are of one group, or every group has a social
-- member and no more than two groups are lone.
theorem seat_iff : (∃ l, List.Perm l xs ∧ l.IsChain (Beside group social)) ↔
    (∀ x ∈ xs, ∀ y ∈ xs, group x = group y) ∨
      (∀ x ∈ xs, ∃ y ∈ xs, group y = group x ∧ social y) ∧
        ∃ a b, ∀ k, Lone group social xs k → k = a ∨ k = b := by
  constructor
  · rintro ⟨l, hp, h⟩
    refine or_iff_not_imp_left.mpr fun hne => ?_
    push Not at hne
    obtain ⟨u, hu, v, hv, hne⟩ := hne
    refine ⟨fun x hx => ?_, ?_⟩
    · have hy : ∃ y ∈ xs, group y ≠ group x := by
        by_cases he : group u = group x
        case pos => exact ⟨v, hv, he ▸ Ne.symm hne⟩
        case neg => exact ⟨u, hu, he⟩
      obtain ⟨y, hy, hne⟩ := hy
      have ⟨z, hz, hs⟩ := exists_social h (hp.mem_iff.mpr hx) (hp.mem_iff.mpr hy) hne
      exact ⟨z, hp.mem_iff.mp hz, hs⟩
    · have hnil : l ≠ [] := List.ne_nil_of_mem (hp.mem_iff.mpr hu)
      refine ⟨group (l.head hnil), group (l.getLast hnil), fun k hk => ?_⟩
      rcases lone_end h (hk.of_perm hp) with ⟨x, hx, rfl⟩ | ⟨x, hx, rfl⟩
      · rw [List.head?_eq_some_head hnil] at hx
        cases hx
        exact .inl rfl
      · rw [List.getLast?_eq_some_getLast hnil] at hx
        cases hx
        exact .inr rfl
  · rintro (h | ⟨hs, a, b, hab⟩)
    · have hp : xs.Pairwise (Beside group social) :=
        List.pairwise_of_forall_mem_list fun x hx y hy => .inl (h x hx y hy)
      exact ⟨xs, .refl _, hp.isChain⟩
    · exact seat_of_lone hs hab

end Seats

end Seating
