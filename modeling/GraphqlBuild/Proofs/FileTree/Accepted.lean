import GraphqlBuild.Proofs.FileTree.Pattern
/-!
# Walks that a pattern accepts

A file that matches is at the end of an accepted walk (`Glob.exists_walk_of_mem_expand`). Without a star a walk has one
piece for each component, and only plain texts accept themselves (`Glob.not_mem_of_follows_self`); with a star ever
longer names are accepted, so another walk leads to a place beside (`Glob.Follows.exists_beside`). A walk steps up only
where a component says so (`Glob.Follows.up_notMem`).
-/

namespace GraphqlBuild.Glob

open GraphqlBuild.Path

/-! ## Collapsed components -/

theorem mem_collapseSteps_iff {s : Step} {steps : List Step} : s ∈ collapseSteps steps ↔ s ∈ steps := by
  fun_induction collapseSteps steps with
  | case1 steps ih => simp [ih]
  | case2 s' steps _ ih => simp [ih]
  | case3 => simp

theorem getLast?_collapseSteps (steps : List Step) : (collapseSteps steps).getLast? = steps.getLast? := by
  fun_induction collapseSteps steps with
  | case1 steps ih => rw [ih, List.getLast?_cons_cons]
  | case2 s' steps _ ih => rw [List.getLast?_cons, List.getLast?_cons, ih]
  | case3 => rfl

theorem collapseSteps_eq_self {steps : List Step} (h : .anyDirs ∉ steps) : collapseSteps steps = steps := by
  fun_induction collapseSteps steps with
  | case1 steps ih => simp at h
  | case2 s' steps _ ih => rw [ih fun hmem => h (List.mem_cons_of_mem s' hmem)]
  | case3 => rfl

/-! ## Stars -/

/-- The component accepts texts of any length, or any number of names. -/
def Step.HasStar : Step → Prop
  | .exactly _ => False
  | .matching items => .anyText ∈ items
  | .anyDirs => True

/-- Without a star only plain texts accept themselves. -/
theorem not_mem_of_follows_self {ts : List Text} {steps : List Step} (hspells : List.Forall₂ Spells ts steps)
    (hstar : ∀ s ∈ steps, ¬ s.HasStar) (h : Follows steps ts) : ∀ t ∈ ts, '*' ∉ t ∧ '[' ∉ t := by
  induction hspells with
  | nil => simp
  | @cons t s ts steps hspell hspells ih =>
    obtain ⟨hfirst, hrest⟩ := List.forall_mem_cons.1 hstar
    cases s with
    | exactly name =>
      cases h with
      | exactly _ rest => exact List.forall_mem_cons.2 ⟨not_mem_of_spells_exactly hspell, ih hrest rest⟩
    | matching items =>
      cases h with
      | matching accepts admits rest =>
        exact List.forall_mem_cons.2 ⟨not_mem_of_spells_accepts hspell hfirst accepts, ih hrest rest⟩
    | anyDirs => exact absurd trivial hfirst

theorem mem_suffixes_iff {s t : Text} : s ∈ suffixes t ↔ s <:+ t := by
  induction t with
  | nil => simp [suffixes]
  | cons c t ih => rw [suffixes, List.mem_cons, ih, List.suffix_cons_iff]

/-- **With a star** it accepts longer texts as well. -/
theorem exists_longer_match {items : List Item} {t : Text} (hstar : .anyText ∈ items) (h : matchItems items t = true)
    (n : Nat) : ∃ t', matchItems items t' = true ∧ n ≤ t'.length ∧ ∀ c ∈ t', c = 'x' ∨ c ∈ t := by
  induction items generalizing t with
  | nil => cases hstar
  | cons item items ih =>
    by_cases hitem : item = .anyText
    · subst hitem
      refine ⟨List.replicate n 'x' ++ t, ?_, by simp, fun c hc => ?_⟩
      · rw [matchItems, List.any_eq_true] at h ⊢
        obtain ⟨s, hs, hmatch⟩ := h
        refine ⟨s, mem_suffixes_iff.2 ?_, hmatch⟩
        exact (mem_suffixes_iff.1 hs).trans (List.suffix_append _ t)
      · rcases List.mem_append.1 hc with hc | hc
        · exact .inl (List.eq_of_mem_replicate hc)
        · exact .inr hc
    · cases t with
      | nil =>
        rw [matchItems_cons_nil hitem] at h
        cases h
      | cons c t =>
        rw [matchItems_cons_cons hitem, Bool.and_eq_true] at h
        obtain ⟨t', hmatch, hlength, hchars⟩ := ih ((List.mem_cons.1 hstar).resolve_left (Ne.symm hitem)) h.2
        refine ⟨c :: t', by rw [matchItems_cons_cons hitem, h.1, hmatch]; rfl, ?_, ?_⟩
        · rw [List.length_cons]
          omega
        · intro d hd
          rcases List.mem_cons.1 hd with rfl | hd
          · exact .inr List.mem_cons_self
          · exact (hchars d hd).imp_right (List.mem_cons_of_mem c)

theorem isName_of_length_of_slash_notMem {t : Text} (hlength : 3 ≤ t.length) (h : '/' ∉ t) : IsName t := by
  refine ⟨?_, h, ?_, ?_⟩ <;> rintro rfl <;> simp at hlength

theorem not_prefix_of_notMem {α : Type} {front rest rest' : List α} {x : α} (hne : rest ≠ []) (hx : x ∉ rest) :
    ¬ front ++ rest <+: front ++ x :: rest' := by
  obtain ⟨y, ys, rfl⟩ := List.exists_cons_of_ne_nil hne
  rw [List.prefix_append_right_inj, List.cons_prefix_cons]
  rintro ⟨rfl, -⟩
  exact hx List.mem_cons_self

namespace Follows
variable {steps : List Step} {ps : List Text} (h : Follows steps ps)
include h

/-- The pieces of an accepted walk have no slash if the exact names of the pattern have none. -/
theorem slash_notMem (hexactly : ∀ name, .exactly name ∈ steps → '/' ∉ name) : ∀ piece ∈ ps, '/' ∉ piece := by
  induction h with
  | nil => simp
  | exactly name rest ih =>
    exact List.forall_mem_cons.2 ⟨hexactly name List.mem_cons_self,
      ih fun name hname => hexactly name (List.mem_cons_of_mem _ hname)⟩
  | matching accepts admits rest ih =>
    refine List.forall_mem_cons.2 ⟨?_, ih fun name hname => hexactly name (List.mem_cons_of_mem _ hname)⟩
    rcases admits with hname | ⟨-, rfl | rfl⟩
    · exact hname.slash_notMem
    · decide
    · decide
  | dirs ne_nil names => exact fun d hd => (names d hd).slash_notMem
  | anyDirs names isName accepts rest ih =>
    refine List.forall_mem_append.2 ⟨fun d hd => (names d hd).slash_notMem, ?_⟩
    exact List.forall_mem_cons.2 ⟨isName.slash_notMem, ih fun name hname =>
      hexactly name (List.mem_cons_of_mem _ (List.mem_cons_of_mem _ hname))⟩

/-- Without a star there is one piece for each component. -/
theorem length_eq (hstar : ∀ s ∈ steps, ¬ s.HasStar) : ps.length = steps.length := by
  induction h with
  | nil => rfl
  | exactly name rest ih => rw [List.length_cons, List.length_cons, ih (List.forall_mem_cons.1 hstar).2]
  | matching accepts admits rest ih => rw [List.length_cons, List.length_cons, ih (List.forall_mem_cons.1 hstar).2]
  | dirs => exact absurd trivial (hstar _ List.mem_cons_self)
  | anyDirs => exact absurd trivial (hstar _ List.mem_cons_self)

theorem ne_nil (hne : steps ≠ []) : ps ≠ [] := by
  cases h with
  | nil => exact absurd rfl hne
  | dirs ne_nil => exact ne_nil
  | _ => simp

/-- A walk ends with the exact name that the pattern ends with. -/
theorem getLast?_eq {name : Text} (hlast : steps.getLast? = some (.exactly name)) : ps.getLast? = some name := by
  induction h with
  | nil => cases hlast
  | @exactly name' steps ps rest ih =>
    by_cases hnil : steps = []
    · subst hnil
      cases rest
      simpa using hlast
    · rw [getLast?_cons_of_ne_nil hnil] at hlast
      rw [getLast?_cons_of_ne_nil (rest.ne_nil hnil), ih hlast]
  | @matching items piece steps ps accepts admits rest ih =>
    have hnil : steps ≠ [] := by
      rintro rfl
      cases hlast
    rw [getLast?_cons_of_ne_nil hnil] at hlast
    rw [getLast?_cons_of_ne_nil (rest.ne_nil hnil), ih hlast]
  | dirs => cases hlast
  | @anyDirs dirs step name' steps ps names isName accepts rest ih =>
    rw [List.getLast?_append_of_ne_nil _ (by simp)]
    rw [List.getLast?_cons_cons] at hlast
    by_cases hnil : steps = []
    · subst hnil
      cases rest
      obtain rfl : step = .exactly name := by simpa using hlast
      simpa [Step.accepts] using accepts
    · rw [getLast?_cons_of_ne_nil hnil] at hlast
      rw [getLast?_cons_of_ne_nil (rest.ne_nil hnil), ih hlast]

/-- **With a star** another walk is accepted, through a name as long as one likes. -/
theorem exists_longer (hslash : ∀ piece ∈ ps, '/' ∉ piece) {name : Text}
    (hlast : steps.getLast? = some (.exactly name)) (hstar : ∃ s ∈ steps, s.HasStar) (n : Nat) :
    ∃ before replaced after longer, ps = before ++ replaced ++ after ∧ Follows steps (before ++ longer :: after) ∧
      IsName longer ∧ n ≤ longer.length ∧ (∀ c ∈ longer, c = 'x' ∨ ∃ piece ∈ replaced, c ∈ piece) ∧
      after.getLast? = some name := by
  induction h with
  | nil => cases hlast
  | @exactly name' steps ps rest ih =>
    have hne : steps ≠ [] := by
      rintro rfl
      obtain ⟨s, hs, hstar⟩ := hstar
      obtain rfl := List.mem_singleton.1 hs
      exact hstar
    obtain ⟨before, replaced, after, longer, rfl, hfollows, hrest⟩ := ih (List.forall_mem_cons.1 hslash).2
      (by rwa [getLast?_cons_of_ne_nil hne] at hlast) (by simpa [Step.HasStar] using hstar)
    exact ⟨name' :: before, replaced, after, longer, by simp, .exactly name' hfollows, hrest⟩
  | @matching items piece steps ps accepts admits rest ih =>
    obtain ⟨hpiece, hps⟩ := List.forall_mem_cons.1 hslash
    have hne : steps ≠ [] := by
      rintro rfl
      cases hlast
    rw [getLast?_cons_of_ne_nil hne] at hlast
    by_cases htext : .anyText ∈ items
    · -- the piece itself gets longer, and with three characters it is a name
      obtain ⟨longer, hmatch, hlength, hchars⟩ := exists_longer_match htext accepts (max n 3)
      have hname : IsName longer := isName_of_length_of_slash_notMem (by omega) fun hmem =>
        (hchars _ hmem).elim (by decide) hpiece
      exact ⟨[], [piece], ps, longer, rfl, .matching hmatch (.inl hname) rest, hname, by omega,
        fun c hc => (hchars c hc).imp_right fun hc => ⟨piece, List.mem_singleton_self _, hc⟩, rest.getLast?_eq hlast⟩
    · obtain ⟨before, replaced, after, longer, rfl, hfollows, hrest⟩ := ih hps hlast
        (by simpa [Step.HasStar, htext] using hstar)
      exact ⟨piece :: before, replaced, after, longer, by simp, .matching accepts admits hfollows, hrest⟩
  | dirs => cases hlast
  | @anyDirs dirs step name' steps ps names isName accepts rest ih =>
    have hall : Follows (.anyDirs :: step :: steps) (dirs ++ name' :: ps) := .anyDirs names isName accepts rest
    have hlength : (List.replicate (max n 3) 'x').length = max n 3 := List.length_replicate
    have hlonger : IsName (List.replicate (max n 3) 'x') :=
      isName_of_length_of_slash_notMem (by omega) fun hmem => absurd (List.eq_of_mem_replicate hmem) (by decide)
    refine ⟨[], [], dirs ++ name' :: ps, List.replicate (max n 3) 'x', rfl, ?_, hlonger, by omega,
      fun c hc => .inl (List.eq_of_mem_replicate hc), hall.getLast?_eq hlast⟩
    have hdirs : ∀ d ∈ List.replicate (max n 3) 'x' :: dirs, IsName d := List.forall_mem_cons.2 ⟨hlonger, names⟩
    have hmore : Follows (.anyDirs :: step :: steps) ((List.replicate (max n 3) 'x' :: dirs) ++ name' :: ps) :=
      .anyDirs hdirs isName accepts rest
    exact hmore

/-- So where a walk leads to a file another one leads to a place beside it. -/
theorem exists_beside (hslash : ∀ piece ∈ ps, '/' ∉ piece) {name : Text} (hlast : steps.getLast? = some (.exactly name))
    (hstar : ∃ s ∈ steps, s.HasStar) {base : List Text} (hps : movesOf ps = base ++ [name])
    (hbase : ∀ x ∈ base ++ [name], IsName x ∧ '?' ∉ x) :
    ∃ ps' names, Follows steps (ps' ++ [name]) ∧ (∀ piece ∈ ps', '/' ∉ piece) ∧
      movesOf ps' = names ∧ (∀ x ∈ names ++ [name], IsName x ∧ '?' ∉ x) ∧
      ¬ base ++ [name] <+: names ++ [name] ∧ ¬ names ++ [name] <+: base ++ [name] := by
  have hname : isIdle name = false := (hbase name (by simp)).1.isIdle_eq_false
  obtain ⟨before, replaced, after, longer, rfl, hfollows, hlonger, hlength, hchars, hafter⟩ :=
    h.exists_longer hslash hlast hstar ((base ++ [name]).flatten.length + 1)
  obtain ⟨after, rfl⟩ := List.getLast?_eq_some_iff.1 hafter
  have hsplit : base = movesOf before ++ (movesOf replaced ++ movesOf after) := by
    simpa [hname, ← List.append_assoc] using hps.symm
  have hnew : longer ∉ base ++ [name] := by
    intro hmem
    have := (List.sublist_flatten_of_mem hmem).length_le
    omega
  have hquery : '?' ∉ longer := by
    intro hmem
    rcases hchars _ hmem with heq | ⟨piece, hpiece, hmem⟩
    · cases heq
    · have hmove : piece ∈ base ++ [name] := by
        rw [← hps]
        exact mem_movesOf_iff.2 ⟨by simp [hpiece], isIdle_eq_false_of_mem (by decide) hmem⟩
      exact (hbase piece hmove).2 hmem
  refine ⟨before ++ longer :: after, movesOf before ++ longer :: movesOf after, by simpa using hfollows,
    fun piece hpiece => ?_, by simp [hlonger.isIdle_eq_false], fun x hx => ?_, ?_,
    fun hbegins => hnew (hbegins.mem (by simp))⟩
  · rw [List.mem_append, List.mem_cons] at hpiece
    rcases hpiece with hpiece | rfl | hpiece
    · exact hslash piece (by simp [hpiece])
    · exact hlonger.slash_notMem
    · exact hslash piece (by simp [hpiece])
  · by_cases hx' : x = longer
    · exact hx' ▸ ⟨hlonger, hquery⟩
    · refine hbase x ?_
      rw [hsplit]
      simp only [List.mem_append, List.mem_cons, hx', false_or] at hx ⊢
      tauto
  · rw [hsplit] at hnew ⊢
    simp only [List.append_assoc, List.cons_append] at hnew ⊢
    exact not_prefix_of_notMem (by simp) fun hmem => hnew (List.mem_append_right _ hmem)

end Follows

/-! ## Steps up -/

/-- The component can lead to the directory above. -/
def Step.Rises : Step → Prop
  | .exactly name => name = ['.', '.']
  | .matching items => items.head? = some (.char '.') ∧ matchItems items ['.', '.'] = true
  | .anyDirs => False

/-- Only `..` rises, and what begins with a dot and has wildcards or brackets. -/
theorem not_rises_of_spells {t : Text} {s : Step} (h : Spells t s) (hup : t ≠ ['.', '.'])
    (hdot : t.head? = some '.' → IsPlain t) : ¬ s.Rises := by
  cases s with
  | exactly name => exact fun hname => hup (eq_of_spells_exactly h ▸ hname)
  | matching items =>
    rintro ⟨hhead, -⟩
    have hitems := itemsOf_of_spells_matching h
    have hdotted : t.head? = some '.' := by
      cases t with
      | nil =>
        cases hitems
        cases hhead
      | cons c t =>
        rcases readItems_cons hitems with ⟨-, _, rfl | rfl⟩ | ⟨-, _, _, -, rfl⟩ | ⟨-, _, _, _, _, _, -, -, rfl⟩ |
          ⟨-, -, -, _, _, _, -, rfl⟩
        iterate 4 cases hhead
        obtain rfl := Item.char.inj (Option.some.inj hhead)
        rfl
    cases eq_of_spells_of_isPlain h (hdot hdotted)
  | anyDirs => exact id

theorem Follows.up_notMem {steps : List Step} {ps : List Text} (h : Follows steps ps)
    (hrises : ∀ s ∈ steps, ¬ s.Rises) : ['.', '.'] ∉ ps := by
  induction h with
  | nil => simp
  | exactly name rest ih =>
    obtain ⟨hfirst, hrest⟩ := List.forall_mem_cons.1 hrises
    rw [List.mem_cons, not_or]
    exact ⟨Ne.symm hfirst, ih hrest⟩
  | @matching items piece steps ps accepts admits rest ih =>
    obtain ⟨hfirst, hrest⟩ := List.forall_mem_cons.1 hrises
    rw [List.mem_cons, not_or]
    refine ⟨?_, ih hrest⟩
    rintro rfl
    exact hfirst ⟨(admits.resolve_left fun hname => hname.ne_up rfl).1, accepts⟩
  | dirs ne_nil names => exact fun hmem => (names _ hmem).ne_up rfl
  | anyDirs names isName accepts rest ih =>
    rw [List.mem_append, List.mem_cons, not_or, not_or]
    exact ⟨fun hmem => (names _ hmem).ne_up rfl, Ne.symm isName.ne_up,
      ih fun s hs => hrises s (List.mem_cons_of_mem _ (List.mem_cons_of_mem _ hs))⟩

/-- Exact components lead along their own names first. -/
theorem Follows.exists_of_map_exactly {front : List Text} {steps : List Step} {ps : List Text}
    (h : Follows (front.map .exactly ++ steps) ps) : ∃ ps', ps = front ++ ps' ∧ Follows steps ps' := by
  induction front generalizing ps with
  | nil => exact ⟨ps, rfl, h⟩
  | cons name front ih =>
    cases h with
    | exactly _ rest =>
      obtain ⟨ps', rfl, hrest⟩ := ih rest
      exact ⟨ps', rfl, hrest⟩

/-! ## Matches -/

/-- **A file that matches** is at the end of a walk that the components accept. -/
theorem exists_walk_of_mem_expand {w : Workspace} (hroot : w.root.WellFormed) {p : Path}
    (habsolute : isAbsolute p = true) {g : Glob} (hparse : parse p = .ok g) {place : Place}
    (hplace : place ∈ g.expand w) (hfile : place.tree.isDir = false) :
    ∃ steps ps, List.Forall₂ Spells (pieces p).tail steps ∧ g = ⟨collapseSteps steps, false⟩ ∧
      Follows (collapseSteps steps) ps ∧ (∀ piece ∈ ps, '/' ∉ piece) ∧ ps.foldlM Place.step w.top = .ok place := by
  obtain ⟨hplace, hdirs⟩ := List.mem_filter.1 hplace
  rw [hfile, Bool.or_false, Bool.not_eq_eq_eq_not, Bool.not_true, dirsOnly_of_parse hparse] at hdirs
  have hlast : (pieces p).tail.getLast? ≠ some [] := by
    intro hnil
    rw [getLast?_tail_pieces_iff habsolute] at hnil
    simp [hnil] at hdirs
  rw [parse_eq_ok_iff rfl hlast, hdirs] at hparse
  obtain ⟨-, steps, hspells, rfl⟩ := hparse
  obtain ⟨ps, hfollows, hwalk⟩ := exists_walk_of_mem_expandSteps ⟨hroot, by simp [Workspace.top]⟩ hplace
  refine ⟨steps, ps, hspells, rfl, hfollows, hfollows.slash_notMem fun name hname => ?_, hwalk⟩
  obtain ⟨t, ht, hspell⟩ := exists_spells_of_mem hspells (mem_collapseSteps_iff.1 hname)
  rw [eq_of_spells_exactly hspell]
  exact slash_notMem_of_mem_pieces (List.mem_of_mem_tail ht)

end GraphqlBuild.Glob
