import GraphqlBuild.Text.CaseMap
import Mathlib.Data.List.Chain
/-!
# What the case mappings leave alone

A character is settled under a case mapping if the mapping leaves it alone and it is none of the three marks
`#`, `\` and the backtick. The tables map a character to itself or to settled characters only
(`mem_mapCase`), so a second mapping changes nothing (`upper_upper`, `lower_lower`) and the marks neither
come in nor go (`Recased`).

The tables are not searched code point by code point: a run is compared with the whole progression of code
points that another run is mapped to.
-/

namespace GraphqlBuild

/-! ## Code points that the tables do not hold -/

/-- The code point is one of `first`, `first + step`, … up to `last`. -/
def InProgression (first last step code : Nat) : Prop :=
  first ≤ code ∧ code ≤ last ∧ (code - first) % step = 0

namespace CaseRun

/-- The run maps the code point. -/
def Holds (run : CaseRun) (code : Nat) : Prop := InProgression run.first run.last run.step code

theorem map?_eq_none {run : CaseRun} {code : Nat} (h : ¬run.Holds code) : run.map? code = none := by
  exact if_neg h

theorem of_map?_eq_some {run : CaseRun} {code : Nat} {c : Char} (h : run.map? code = some c) :
    run.Holds code ∧ c = Char.ofNat (code + run.shift).toNat := by
  unfold map? at h
  split at h
  · rename_i hheld
    exact ⟨hheld, (Option.some.inj h).symm⟩
  · cases h

/-- The run of one code point. -/
def single (code : Nat) : CaseRun := ⟨code, code, 1, 0⟩

theorem single_holds_self (code : Nat) : (single code).Holds code := by simp [Holds, InProgression, single]

/-- Two progressions of step 2 that keep to even and to odd code points. -/
def interleaved (first last step : Nat) (run : CaseRun) : Bool :=
  (Nat.beq step 2 || Nat.beq first last) && (Nat.beq run.step 2 || Nat.beq run.first run.last) &&
    Nat.beq ((first + run.first) % 2) 1

/-- No run of the list, which is in ascending order, holds a code point of the progression. -/
def missedBy (first last step : Nat) : List CaseRun → Bool
  | [] => true
  | run :: runs =>
    bif Nat.blt last run.first then true
    else (Nat.blt run.last first || interleaved first last step run) && missedBy first last step runs

theorem not_holds_of_interleaved {first last step code : Nat} {run : CaseRun}
    (h : interleaved first last step run = true) (hcode : InProgression first last step code) :
    ¬run.Holds code := by
  simp only [interleaved, Bool.and_eq_true, Bool.or_eq_true, Nat.beq_eq] at h
  obtain ⟨⟨hstep, hrun⟩, hparity⟩ := h
  simp only [Holds, InProgression] at hcode ⊢
  have hfirst : code % 2 = first % 2 := by
    rcases hstep with hstep | hstep
    · rw [hstep] at hcode
      omega
    · omega
  rintro ⟨hle, hle', hmod⟩
  have hother : code % 2 = run.first % 2 := by
    rcases hrun with hrun | hrun
    · rw [hrun] at hmod
      omega
    · omega
  omega

theorem not_holds_of_missedBy {first last step code : Nat} {runs : List CaseRun}
    (hsorted : runs.IsChain fun a b => a.first ≤ b.first) (h : missedBy first last step runs = true)
    (hcode : InProgression first last step code) : ∀ run ∈ runs, ¬run.Holds code := by
  have htrans : Trans (α := CaseRun) (β := CaseRun) (γ := CaseRun) (·.first ≤ ·.first) (·.first ≤ ·.first)
      (·.first ≤ ·.first) := ⟨Nat.le_trans⟩
  rw [List.isChain_iff_pairwise] at hsorted
  induction runs with
  | nil => simp
  | cons run runs ih =>
    obtain ⟨hfirst, hsorted⟩ := List.pairwise_cons.1 hsorted
    rw [missedBy] at h
    cases hlt : Nat.blt last run.first with
    | true =>
      -- all later runs begin behind the progression
      rw [Nat.blt_eq] at hlt
      obtain ⟨-, hle, -⟩ := hcode
      intro r hr hheld
      have hr' : run.first ≤ r.first := by
        rcases List.mem_cons.1 hr with rfl | hr
        · exact Nat.le_refl _
        · exact hfirst r hr
      obtain ⟨hrun, -, -⟩ := hheld
      omega
    | false =>
      rw [hlt, cond_false, Bool.and_eq_true, Bool.or_eq_true] at h
      intro r hr
      rcases List.mem_cons.1 hr with rfl | hr
      · rcases h.1 with hbehind | hinterleaved
        · rintro ⟨-, hrun, -⟩
          obtain ⟨hfirst, -, -⟩ := hcode
          rw [Nat.blt_eq] at hbehind
          omega
        · exact not_holds_of_interleaved hinterleaved hcode
      · exact ih hsorted h.2 r hr

end CaseRun

/-- The characters that mean something to comments and to literals. -/
def keptMarks : List Char := ['#', '\\', '\x60']

/-- A case mapping: its runs and its sequences. -/
structure CaseTable where
  runs : List CaseRun
  sequences : List (Nat × List Nat)

namespace CaseTable

/-- The mapping of one character. -/
def map (table : CaseTable) (c : Char) : Text := mapCase table.runs table.sequences c

/-- The character is left alone and is no mark. -/
def Settled (table : CaseTable) (c : Char) : Prop := table.map c = [c] ∧ c ∉ keptMarks

/-- The table holds no code point of the progression. -/
def misses (table : CaseTable) (first last step : Nat) : Bool :=
  CaseRun.missedBy first last step table.runs &&
    CaseRun.missedBy first last step (table.sequences.map fun s => .single s.1)

/-- All code points of the progression are characters that are left alone and no marks. -/
def settles (table : CaseTable) (first last step : Nat) : Bool :=
  (Nat.blt last 0xd800 || (Nat.blt 0xdfff first && Nat.blt last 0x110000)) &&
    table.misses first last step && CaseRun.missedBy first last step (keptMarks.map fun c => .single c.toNat)

/-- The tables are in ascending order, and all that they map to is settled. -/
structure Sound (table : CaseTable) : Prop where
  runs_sorted : table.runs.IsChain fun a b => a.first ≤ b.first
  sequences_sorted : (table.sequences.map fun s => CaseRun.single s.1).IsChain fun a b => a.first ≤ b.first
  shifts_le : (table.runs.all fun r => 0 ≤ r.first + r.shift) = true
  runs_settle : (table.runs.all fun r =>
    table.settles (r.first + r.shift).toNat (r.last + r.shift).toNat r.step) = true
  sequences_settle : (table.sequences.all fun s => s.2.all fun n => table.settles n n 1) = true
  marks_missed : (keptMarks.all fun c => table.misses c.toNat c.toNat 1) = true

theorem map_eq_singleton_of_misses {table : CaseTable} (hsound : table.Sound) {first last step : Nat}
    (h : table.misses first last step = true) {c : Char} (hc : InProgression first last step c.toNat) :
    table.map c = [c] := by
  obtain ⟨hruns, hsequences⟩ := Bool.and_eq_true_iff.1 h
  have hlookup : table.sequences.lookup c.toNat = none := by
    rw [List.lookup_eq_none_iff]
    intro s hs
    have hmiss := CaseRun.not_holds_of_missedBy hsound.sequences_sorted hsequences hc _ (List.mem_map_of_mem hs)
    rw [bne_iff_ne]
    intro heq
    rw [heq] at hmiss
    exact hmiss (CaseRun.single_holds_self _)
  have hfind : table.runs.findSome? (fun run => run.map? c.toNat) = none := by
    rw [List.findSome?_eq_none_iff]
    exact fun run hrun =>
      CaseRun.map?_eq_none (CaseRun.not_holds_of_missedBy hsound.runs_sorted hruns hc run hrun)
  simp [map, mapCase, hlookup, hfind]

theorem map_mark {table : CaseTable} (hsound : table.Sound) {c : Char} (hc : c ∈ keptMarks) : table.map c = [c] :=
  map_eq_singleton_of_misses hsound (List.all_eq_true.1 hsound.marks_missed c hc) (by simp [InProgression])

theorem settled_of_settles {table : CaseTable} (hsound : table.Sound) {first last step code : Nat}
    (h : table.settles first last step = true) (hcode : InProgression first last step code) :
    table.Settled (Char.ofNat code) := by
  simp only [settles, Bool.and_eq_true, Bool.or_eq_true, Nat.blt_eq] at h
  obtain ⟨⟨hvalid, hmisses⟩, hmarks⟩ := h
  have hscalar : code.isValidChar := by
    obtain ⟨hfirst, hlast, -⟩ := hcode
    simp only [Nat.isValidChar]
    omega
  have hcodeOf : (Char.ofNat code).toNat = code := by rw [Char.ofNat, dif_pos hscalar]; rfl
  refine ⟨map_eq_singleton_of_misses hsound hmisses (by rwa [hcodeOf]), fun hmark => ?_⟩
  have hmiss := CaseRun.not_holds_of_missedBy (by decide) hmarks hcode _ (List.mem_map_of_mem hmark)
  rw [hcodeOf] at hmiss
  exact hmiss (CaseRun.single_holds_self _)

/-- What a character is mapped to is settled, unless the mapping leaves it alone. -/
theorem map_eq_singleton_or_settled {table : CaseTable} (hsound : table.Sound) (c : Char) :
    table.map c = [c] ∨ ∀ d ∈ table.map c, table.Settled d := by
  unfold map mapCase
  cases hlookup : table.sequences.lookup c.toNat with
  | some codes =>
    right
    intro d hd
    obtain ⟨code, hcode, rfl⟩ := List.mem_map.1 hd
    obtain ⟨before, after, heq, -⟩ := List.lookup_eq_some_iff.1 hlookup
    have hentry : (c.toNat, codes) ∈ table.sequences := heq ▸ by simp
    have hsettle := List.all_eq_true.1 (List.all_eq_true.1 hsound.sequences_settle _ hentry) code hcode
    exact settled_of_settles hsound hsettle (by simp [InProgression])
  | none =>
    cases hfind : table.runs.findSome? (fun run => run.map? c.toNat) with
    | none => exact .inl rfl
    | some d =>
      right
      intro e he
      obtain rfl := List.mem_singleton.1 he
      obtain ⟨run, hrun, hmap⟩ := List.exists_of_findSome?_eq_some hfind
      obtain ⟨hheld, rfl⟩ := CaseRun.of_map?_eq_some hmap
      have hsettle := List.all_eq_true.1 hsound.runs_settle _ hrun
      obtain ⟨hfirst, hlast, hstep⟩ := hheld
      refine settled_of_settles hsound hsettle ⟨by omega, by omega, ?_⟩
      have hshift : 0 ≤ run.first + run.shift := by simpa using List.all_eq_true.1 hsound.shifts_le run hrun
      have hsame : (c.toNat + run.shift).toNat - (run.first + run.shift).toNat = c.toNat - run.first := by omega
      rw [hsame, hstep]

end CaseTable

/-- The mapping to upper case. -/
def upperTable : CaseTable := ⟨upperRuns, upperSequences⟩

/-- The mapping to lower case. -/
def lowerTable : CaseTable := ⟨lowerRuns, lowerSequences⟩

set_option maxRecDepth 100000 in
theorem upperTable_sound : upperTable.Sound where
  runs_sorted := by decide +kernel
  sequences_sorted := by decide +kernel
  shifts_le := by decide +kernel
  runs_settle := by decide +kernel
  sequences_settle := by decide +kernel
  marks_missed := by decide +kernel

set_option maxRecDepth 100000 in
theorem lowerTable_sound : lowerTable.Sound where
  runs_sorted := by decide +kernel
  sequences_sorted := by decide +kernel
  shifts_le := by decide +kernel
  runs_settle := by decide +kernel
  sequences_settle := by decide +kernel
  marks_missed := by decide +kernel

/-! ## Texts in another case -/

/-- A text and the same text in another case, each character left alone or, if it is no mark, replaced with
settled ones. -/
inductive Recased (table : CaseTable) : Text → Text → Prop
  | nil : Recased table [] []
  | same {c : Char} {t t' : Text} (hc : table.map c = [c]) (ht : Recased table t t') :
      Recased table (c :: t) (c :: t')
  | moved {c : Char} {u t t' : Text} (hc : c ∉ keptMarks) (hu : ∀ d ∈ u, table.Settled d)
      (ht : Recased table t t') : Recased table (c :: t) (u ++ t')

namespace Recased
variable {table : CaseTable} {t t' : Text}

theorem cons_map (hsound : table.Sound) (c : Char) (h : Recased table t t') :
    Recased table (c :: t) (table.map c ++ t') := by
  by_cases hmark : c ∈ keptMarks
  · rw [CaseTable.map_mark hsound hmark]
    exact .same (CaseTable.map_mark hsound hmark) h
  · rcases CaseTable.map_eq_singleton_or_settled hsound c with hsame | hsettled
    · rw [hsame]
      exact .same hsame h
    · exact .moved hmark hsettled h

/-- The new text is left alone by the mapping, character by character. -/
theorem map_eq_singleton (h : Recased table t t') : ∀ d ∈ t', table.map d = [d] := by
  induction h with
  | nil => simp
  | same hc ht ih =>
    intro d hd
    rcases List.mem_cons.1 hd with rfl | hd
    · exact hc
    · exact ih d hd
  | moved hc hu ht ih =>
    intro d hd
    rcases List.mem_append.1 hd with hd | hd
    · exact (hu d hd).1
    · exact ih d hd

theorem mem_of_mem {c : Char} (hc : c ∈ keptMarks) (h : Recased table t t') (hmem : c ∈ t') : c ∈ t := by
  induction h with
  | nil => exact hmem
  | same hd ht ih => exact List.mem_cons.2 ((List.mem_cons.1 hmem).imp_right ih)
  | moved hd hu ht ih =>
    rcases List.mem_append.1 hmem with hmem | hmem
    · exact absurd hc (hu c hmem).2
    · exact List.mem_cons_of_mem _ (ih hmem)

end Recased

theorem recased_upper (t : Text) : Recased upperTable t t.upper := by
  induction t with
  | nil => exact .nil
  | cons c t ih =>
    rw [Text.upper, List.flatMap_cons]
    exact .cons_map upperTable_sound c ih

theorem recased_lowerAfter (before t : Text) : Recased lowerTable t (Text.lowerAfter before t) := by
  induction t generalizing before with
  | nil => exact .nil
  | cons c t ih =>
    rw [Text.lowerAfter]
    split
    · rename_i hsigma
      refine .moved (by rw [hsigma]; decide) (fun d hd => ?_) (ih _)
      have hd : d = 'ς' ∨ d = 'σ' := by
        split at hd
        · exact .inl (List.mem_singleton.1 hd)
        · exact .inr (List.mem_singleton.1 hd)
      have hsigmas : lowerTable.settles 0x3c2 0x3c3 1 = true := by decide +kernel
      rcases hd with rfl | rfl
      · have hfinal : InProgression 0x3c2 0x3c3 1 0x3c2 := by simp [InProgression]
        exact CaseTable.settled_of_settles lowerTable_sound hsigmas hfinal
      · have hinner : InProgression 0x3c2 0x3c3 1 0x3c3 := by simp [InProgression]
        exact CaseTable.settled_of_settles lowerTable_sound hsigmas hinner
    · exact .cons_map lowerTable_sound c (ih _)

theorem recased_lower (t : Text) : Recased lowerTable t t.lower := recased_lowerAfter [] t

theorem upper_eq_self {t : Text} (h : ∀ c ∈ t, upperTable.map c = [c]) : t.upper = t := by
  induction t with
  | nil => rfl
  | cons c t ih =>
    have hc : mapCase upperRuns upperSequences c = [c] := h c List.mem_cons_self
    rw [Text.upper, List.flatMap_cons, hc]
    exact congrArg (c :: ·) (ih fun d hd => h d (List.mem_cons_of_mem _ hd))

theorem lowerAfter_eq_self (before : Text) {t : Text} (h : ∀ c ∈ t, lowerTable.map c = [c]) :
    Text.lowerAfter before t = t := by
  induction t generalizing before with
  | nil => rfl
  | cons c t ih =>
    have hc : mapCase lowerRuns lowerSequences c = [c] := h c List.mem_cons_self
    have hsigma : c ≠ 'Σ' := by
      rintro rfl
      exact absurd hc (by decide)
    rw [Text.lowerAfter, if_neg hsigma, hc, ih _ fun d hd => h d (List.mem_cons_of_mem _ hd)]
    rfl

theorem lower_eq_self {t : Text} (h : ∀ c ∈ t, lowerTable.map c = [c]) : t.lower = t :=
  lowerAfter_eq_self [] h

end GraphqlBuild
