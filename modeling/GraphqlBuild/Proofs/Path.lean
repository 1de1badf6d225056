import GraphqlBuild.Path
import GraphqlBuild.Proofs.Text.Collapse
/-!
# Paths, names and their order

Standing at a path and taking one more name adds one component, whatever the path looks like
(`Path.IsName.components_join`). The order of paths is the order of their components, a strict total one, and
`Path.ordered` lists each sequence of components once in that order (`Path.ascending_ordered`,
`Path.mem_ordered_iff`).
-/

namespace GraphqlBuild

namespace Path

/-- The text can be the name of an entry of a directory. -/
structure IsName (name : Text) : Prop where
  ne_nil : name ≠ []
  slash_notMem : '/' ∉ name
  ne_here : name ≠ ['.']
  ne_up : name ≠ ['.', '.']

theorem isName_iff {name : Text} :
    IsName name ↔ name ≠ [] ∧ '/' ∉ name ∧ name ≠ ['.'] ∧ name ≠ ['.', '.'] :=
  ⟨fun h => ⟨h.ne_nil, h.slash_notMem, h.ne_here, h.ne_up⟩, fun ⟨h₁, h₂, h₃, h₄⟩ => ⟨h₁, h₂, h₃, h₄⟩⟩

instance : DecidablePred IsName := fun _ => decidable_of_iff _ isName_iff.symm

/-! ## Pieces -/

theorem pieces_append_slash (s t : Text) : pieces (s ++ '/' :: t) = pieces s ++ pieces t :=
  Text.splitOn_append_cons (by simp) s t

theorem pieces_of_notMem {t : Text} (h : '/' ∉ t) : pieces t = [t] := by
  refine Text.splitOn_of_forall_not fun c hc => ?_
  simp only [beq_eq_false_iff_ne]
  rintro rfl
  exact h hc

theorem pieces_eq_cons (p : Path) : ∃ first rest, pieces p = first :: rest :=
  List.exists_cons_of_ne_nil (Text.splitOn_ne_nil _ p)

/-! ## Components -/

/-- The component that the first piece of a path stands for. -/
def firstComponent (piece : Text) : Component :=
  if piece = [] then .root else if piece = ['.'] then .here else componentOf piece

theorem components_of_pieces {p : Path} {first : Text} {rest : List Text} (hp : p ≠ [])
    (h : pieces p = first :: rest) : components p = firstComponent first :: componentsOf rest := by
  unfold components firstComponent
  rw [h]
  split
  · exact absurd rfl hp
  · simp_all
  · simp_all
  · simp_all
  · simp_all

theorem componentsOf_append (ps qs : List Text) : componentsOf (ps ++ qs) = componentsOf ps ++ componentsOf qs := by
  simp [componentsOf]

@[simp] theorem componentsOf_idle {piece : Text} (h : isIdle piece = true) : componentsOf [piece] = [] := by
  simp [componentsOf, h]

namespace IsName
variable {name : Text} (h : IsName name)
include h

theorem isIdle_eq_false : isIdle name = false := by
  simp [isIdle, h.ne_nil, h.ne_here]

theorem componentOf_eq : componentOf name = .name name := by
  rw [componentOf, if_neg h.ne_up]

theorem componentsOf_singleton : componentsOf [name] = [.name name] := by
  simp [componentsOf, h.isIdle_eq_false, h.componentOf_eq]

theorem firstComponent_eq : firstComponent name = .name name := by
  rw [firstComponent, if_neg h.ne_nil, if_neg h.ne_here, h.componentOf_eq]

theorem components_eq : components name = [.name name] := by
  rw [components_of_pieces h.ne_nil (pieces_of_notMem h.slash_notMem), h.firstComponent_eq]
  rfl

theorem isAbsolute_eq_false : isAbsolute name = false := by
  cases name with
  | nil => rfl
  | cons c t =>
    have hc : c ≠ '/' := fun hc => h.slash_notMem (hc ▸ List.mem_cons_self)
    unfold isAbsolute
    split
    · rename_i heq
      exact absurd (List.cons.inj heq).1 hc
    · rfl

/-- Where the path ends with a slash the name follows it, and else a slash is put between. -/
theorem join_cases (base : Path) :
    (base = [] ∧ join base name = name) ∨
    (∃ b, base = b ++ ['/'] ∧ join base name = b ++ '/' :: name) ∨
    (base ≠ [] ∧ join base name = base ++ '/' :: name) := by
  unfold join
  rw [h.isAbsolute_eq_false, if_neg (by simp)]
  cases hlast : base.getLast? with
  | none => exact .inl ⟨List.getLast?_eq_none_iff.1 hlast, rfl⟩
  | some c =>
    obtain ⟨b, rfl⟩ : ∃ b, base = b ++ [c] := ⟨_, (List.getLast?_eq_some_iff.1 hlast).choose_spec⟩
    by_cases hc : c = '/'
    · subst hc
      exact .inr (.inl ⟨b, rfl, by simp⟩)
    · refine .inr (.inr ⟨by simp, ?_⟩)
      split
      · rename_i heq
        cases heq
      · rename_i heq
        exact absurd (Option.some.inj heq) hc
      · rfl

/-- **One more name** is one more component. -/
theorem components_join (base : Path) : components (join base name) = components base ++ [.name name] := by
  obtain ⟨rfl, hjoin⟩ | ⟨b, rfl, hjoin⟩ | ⟨hne, hjoin⟩ := h.join_cases base
  · rw [hjoin, h.components_eq]
    rfl
  · obtain ⟨first, rest, hb⟩ := pieces_eq_cons b
    have hbase : pieces (b ++ ['/']) = first :: (rest ++ [[]]) := by
      rw [pieces_append_slash, hb]
      rfl
    have hall : pieces (b ++ '/' :: name) = first :: (rest ++ [name]) := by
      rw [pieces_append_slash, hb, pieces_of_notMem h.slash_notMem]
      rfl
    rw [hjoin, components_of_pieces (by simp) hall, components_of_pieces (by simp) hbase, componentsOf_append,
      componentsOf_append, h.componentsOf_singleton, componentsOf_idle rfl, List.append_nil, List.cons_append]
  · obtain ⟨first, rest, hb⟩ := pieces_eq_cons base
    have hall : pieces (base ++ '/' :: name) = first :: (rest ++ [name]) := by
      rw [pieces_append_slash, hb, pieces_of_notMem h.slash_notMem]
      rfl
    rw [hjoin, components_of_pieces (by simp) hall, components_of_pieces hne hb, componentsOf_append,
      h.componentsOf_singleton, List.cons_append]

theorem fileName?_join (base : Path) : fileName? (join base name) = some name := by
  simp [fileName?, h.components_join base]

theorem fileName?_eq : fileName? name = some name := by
  simp [fileName?, h.components_eq]

theorem mem_join_iff {c : Char} (hc : c ≠ '/') (base : Path) : c ∈ join base name ↔ c ∈ base ∨ c ∈ name := by
  obtain ⟨rfl, hjoin⟩ | ⟨b, rfl, hjoin⟩ | ⟨hne, hjoin⟩ := h.join_cases base
  · simp [hjoin]
  · simp [hjoin, hc]
  · simp [hjoin, hc]

end IsName

/-! ## Paths of names -/

/-- The path that leads from `base` along the names. -/
def along (base : Path) (names : List Text) : Path := names.foldl join base

section Along
variable {names : List Text} (h : ∀ name ∈ names, IsName name)
include h

theorem components_along (base : Path) :
    components (along base names) = components base ++ names.map Component.name := by
  induction names generalizing base with
  | nil => simp [along]
  | cons name names ih =>
    have ih' := ih (fun n hn => h n (List.mem_cons_of_mem _ hn)) (join base name)
    rw [along, List.foldl_cons, ← along, ih', (h name List.mem_cons_self).components_join]
    simp

theorem mem_along_iff {c : Char} (hc : c ≠ '/') (base : Path) :
    c ∈ along base names ↔ c ∈ base ∨ ∃ name ∈ names, c ∈ name := by
  induction names generalizing base with
  | nil => simp [along]
  | cons name names ih =>
    have ih' := ih (fun n hn => h n (List.mem_cons_of_mem _ hn)) (join base name)
    rw [along, List.foldl_cons, ← along, ih', (h name List.mem_cons_self).mem_join_iff hc]
    simp [or_assoc]

/-- The names can be read off the path, given where it starts. -/
theorem along_injective {base : Path} {names' : List Text} (h' : ∀ name ∈ names', IsName name)
    (heq : components (along base names) = components (along base names')) : names = names' := by
  rw [components_along h, components_along h', List.append_cancel_left_eq] at heq
  exact (List.map_inj_right fun _ _ hname => Component.name.inj hname).1 heq

end Along

theorem along_concat (base : Path) (names : List Text) (name : Text) :
    along base (names ++ [name]) = join (along base names) name := by
  simp [along]

/-! ## Extensions -/

/-- The extension is what follows the last dot. -/
theorem extensionOf?_append {stem extension : Text} (hstem : stem ≠ []) (hdot : '.' ∉ extension) :
    extensionOf? (stem ++ '.' :: extension) = some extension := by
  have hall : ∀ c ∈ extension.reverse, (c != '.') = true := by
    intro c hc
    simp only [bne_iff_ne]
    rintro rfl
    exact hdot (List.mem_reverse.1 hc)
  have hreverse : (stem ++ '.' :: extension).reverse = extension.reverse ++ '.' :: stem.reverse := by simp
  unfold extensionOf?
  simp only [hreverse, List.dropWhile_append_of_pos hall, List.takeWhile_append_of_pos hall]
  simp [hstem]

end Path

/-! ## The order of components -/

namespace Component

theorem lt_irrefl (a : Component) : a.lt a = false := by
  cases a <;> simp [lt, rank]

theorem lt_trans {a b c : Component} (hab : a.lt b = true) (hbc : b.lt c = true) : a.lt c = true := by
  cases a <;> cases b <;> cases c
  case name.name.name =>
    simp only [lt, decide_eq_true_eq] at hab hbc ⊢
    exact List.lt_trans hab hbc
  all_goals simp_all [lt, rank]

theorem lt_or_lt_of_ne {a b : Component} (h : a ≠ b) : a.lt b = true ∨ b.lt a = true := by
  cases a <;> cases b
  case name.name s t =>
    simp only [lt, decide_eq_true_eq]
    by_contra hnot
    rw [not_or] at hnot
    exact h (congrArg name (List.le_antisymm (List.not_lt.1 hnot.2) (List.not_lt.1 hnot.1)))
  all_goals simp_all [lt, rank]

end Component

namespace Path

theorem componentsLt_irrefl (as : List Component) : componentsLt as as = false := by
  induction as with
  | nil => rfl
  | cons a as ih => rw [componentsLt, if_pos rfl, ih]

theorem componentsLt_trans {as bs cs : List Component} (hab : componentsLt as bs = true)
    (hbc : componentsLt bs cs = true) : componentsLt as cs = true := by
  induction as generalizing bs cs with
  | nil =>
    cases bs with
    | nil => simp [componentsLt] at hab
    | cons b bs =>
      cases cs with
      | nil => simp [componentsLt] at hbc
      | cons c cs => rfl
  | cons a as ih =>
    cases bs with
    | nil => simp [componentsLt] at hab
    | cons b bs =>
      cases cs with
      | nil => simp [componentsLt] at hbc
      | cons c cs =>
        simp only [componentsLt] at hab hbc ⊢
        by_cases hab' : a = b
        · subst hab'
          by_cases hac : a = c
          · subst hac
            simp only [if_true] at hab hbc ⊢
            exact ih hab hbc
          · simpa [hac] using hbc
        · by_cases hbc' : b = c
          · subst hbc'
            simpa [hab'] using hab
          · simp only [hab', hbc', if_false] at hab hbc
            have hac : a.lt c = true := Component.lt_trans hab hbc
            have hne : a ≠ c := by
              rintro rfl
              rw [Component.lt_irrefl] at hac
              cases hac
            rw [if_neg hne, hac]

theorem componentsLt_or_of_ne {as bs : List Component} (h : as ≠ bs) :
    componentsLt as bs = true ∨ componentsLt bs as = true := by
  induction as generalizing bs with
  | nil =>
    cases bs with
    | nil => exact absurd rfl h
    | cons b bs => exact .inl rfl
  | cons a as ih =>
    cases bs with
    | nil => exact .inr rfl
    | cons b bs =>
      simp only [componentsLt]
      by_cases hab : a = b
      · subst hab
        simpa using ih fun hrest => h (hrest ▸ rfl)
      · rw [if_neg hab, if_neg (Ne.symm hab)]
        exact Component.lt_or_lt_of_ne hab

/-! ## Ordered lists of paths -/

/-- The paths ascend, no two of them with the same components. -/
def Ascending (paths : List Path) : Prop := paths.Pairwise fun p q => lt p q = true

theorem Ascending.nodup {paths : List Path} (h : Ascending paths) : paths.Nodup := by
  refine List.Pairwise.imp ?_ h
  rintro p q hlt rfl
  rw [lt, componentsLt_irrefl] at hlt
  cases hlt

section Insert
variable {p : Path} {paths : List Path}

theorem eq_or_mem_of_mem_insertOrdered {x : Path} (h : x ∈ insertOrdered p paths) : x = p ∨ x ∈ paths := by
  fun_induction insertOrdered p paths with
  | case1 => simpa using h
  | case2 q rest heq => exact .inr h
  | case3 q rest hne hlt => simpa using h
  | case4 q rest hne hlt ih =>
    rcases List.mem_cons.1 h with rfl | h
    · exact .inr List.mem_cons_self
    · exact (ih h).imp_right (List.mem_cons_of_mem q)

theorem mem_insertOrdered_of_mem {x : Path} (h : x ∈ paths) : x ∈ insertOrdered p paths := by
  fun_induction insertOrdered p paths with
  | case1 => cases h
  | case2 q rest heq => exact h
  | case3 q rest hne hlt => exact List.mem_cons_of_mem p h
  | case4 q rest hne hlt ih =>
    rcases List.mem_cons.1 h with rfl | h
    · exact List.mem_cons_self
    · exact List.mem_cons_of_mem q (ih h)

theorem exists_mem_insertOrdered (p : Path) (paths : List Path) :
    ∃ x ∈ insertOrdered p paths, components x = components p := by
  fun_induction insertOrdered p paths with
  | case1 => exact ⟨p, List.mem_cons_self, rfl⟩
  | case2 q rest heq => exact ⟨q, List.mem_cons_self, heq.symm⟩
  | case3 q rest hne hlt => exact ⟨p, List.mem_cons_self, rfl⟩
  | case4 q rest hne hlt ih =>
    obtain ⟨x, hx, heq⟩ := ih
    exact ⟨x, List.mem_cons_of_mem q hx, heq⟩

theorem ascending_insertOrdered (h : Ascending paths) : Ascending (insertOrdered p paths) := by
  fun_induction insertOrdered p paths with
  | case1 => exact List.pairwise_singleton _ p
  | case2 q rest heq => exact h
  | case3 q rest hne hlt =>
    refine List.Pairwise.cons (fun x hx => ?_) h
    rcases List.mem_cons.1 hx with rfl | hx
    · exact hlt
    · exact componentsLt_trans hlt (List.rel_of_pairwise_cons h hx)
  | case4 q rest hne hlt ih =>
    refine List.Pairwise.cons (fun x hx => ?_) (ih h.of_cons)
    rcases eq_or_mem_of_mem_insertOrdered hx with rfl | hx
    · exact (componentsLt_or_of_ne hne).resolve_left hlt
    · exact List.rel_of_pairwise_cons h hx

end Insert

/-- What inserting one path after another keeps and adds. -/
theorem foldl_insertOrdered (paths : List Path) {sorted : List Path} (h : Ascending sorted) :
    let all := paths.foldl (fun sorted p => insertOrdered p sorted) sorted
    Ascending all ∧ (∀ x ∈ all, x ∈ sorted ∨ x ∈ paths) ∧ (∀ x ∈ sorted, x ∈ all) ∧
      ∀ p ∈ paths, ∃ x ∈ all, components x = components p := by
  induction paths generalizing sorted with
  | nil => simpa using h
  | cons p paths ih =>
    obtain ⟨hascending, hfrom, hkeeps, hadds⟩ := ih (ascending_insertOrdered (p := p) h)
    refine ⟨hascending, fun x hx => ?_, fun x hx => hkeeps x (mem_insertOrdered_of_mem hx), fun q hq => ?_⟩
    · rcases hfrom x hx with hx | hx
      · rcases eq_or_mem_of_mem_insertOrdered hx with rfl | hx
        · exact .inr List.mem_cons_self
        · exact .inl hx
      · exact .inr (List.mem_cons_of_mem p hx)
    · rcases List.mem_cons.1 hq with rfl | hq
      · obtain ⟨x, hx, heq⟩ := exists_mem_insertOrdered q sorted
        exact ⟨x, hkeeps x hx, heq⟩
      · exact hadds q hq

theorem ascending_ordered (paths : List Path) : Ascending (ordered paths) :=
  (foldl_insertOrdered paths List.Pairwise.nil).1

theorem mem_of_mem_ordered {paths : List Path} {x : Path} (h : x ∈ ordered paths) : x ∈ paths := by
  simpa using (foldl_insertOrdered paths List.Pairwise.nil).2.1 x h

/-- Each path is there, if perhaps in another spelling of its components. -/
theorem exists_mem_ordered {paths : List Path} {p : Path} (h : p ∈ paths) :
    ∃ x ∈ ordered paths, components x = components p :=
  (foldl_insertOrdered paths List.Pairwise.nil).2.2.2 p h

/-- No path is lost where the components tell the paths apart. -/
theorem mem_ordered_iff {paths : List Path}
    (h : ∀ p ∈ paths, ∀ q ∈ paths, components p = components q → p = q) {x : Path} :
    x ∈ ordered paths ↔ x ∈ paths := by
  constructor
  · exact mem_of_mem_ordered
  · intro hx
    obtain ⟨y, hy, heq⟩ := exists_mem_ordered hx
    have hyx : y = x := h y (mem_of_mem_ordered hy) x hx heq
    exact hyx ▸ hy

end Path

end GraphqlBuild
