import Lexicon.Decision.Readers
import Lexicon.Proofs.Decision.Cursor
import Lexicon.Proofs.Decision.Forward
import Lexicon.Proofs.Matching
import Lexicon.Proofs.Source.Lowering

/-!
# Reading forward is reading at random

The cursor of an evaluation hides how much of the input is left. What it reads is nevertheless what
stands at the offset in the folded input, and the only thing that it cannot do is to go back
(`forward_reading`). So a decision whose offsets grow along every path is evaluated as if all of the
input lay open, and any other finds nothing that it would not find so.

Readers are compared by a relation between their states (`Reader.Refines`): what one reads, the
other reads too, and both go on in related states. A decision then finds with the second whatever it
finds with the first (`runOn_of_refines`).
-/

namespace Lexicon

universe u

variable {V : Type u}

namespace Reader

variable {σ τ : Type}

/-- What `reader` reads in a state, `other` reads in every related state, and the states behind are
related again. -/
def Refines (related : σ → τ → Prop) (reader : Reader σ) (other : Reader τ) : Prop :=
  ∀ ⦃s t⦄, related s t → ∀ ⦃offset c s'⦄, reader.read s offset = some (c, s') →
    ∃ t', other.read t offset = some (c, t') ∧ related s' t'

/-- Tests that pass with a reader pass with one that it refines. -/
theorem Refines.passAll {related : σ → τ → Prop} {reader : Reader σ} {other : Reader τ}
    (h : reader.Refines related other) (tests : List CharTest) {s s' : σ} {t : τ}
    (hst : related s t) (hpass : reader.passAll s tests = some s') :
    ∃ t', other.passAll t tests = some t' ∧ related s' t' := by
  induction tests generalizing s t with
  | nil =>
    obtain rfl := Option.some.inj hpass
    exact ⟨t, rfl, hst⟩
  | cons test tests ih =>
    rw [Reader.passAll, Option.bind_eq_some_iff] at hpass
    obtain ⟨⟨c, behind⟩, hread, hrest⟩ := hpass
    obtain ⟨behind', hread', hrelated⟩ := h hst hread
    split at hrest
    · rename_i hc
      obtain ⟨t', hpass', ht'⟩ := ih hrelated hrest
      exact ⟨t', by rw [Reader.passAll, hread', Option.bind_some, if_pos hc, hpass'], ht'⟩
    · simp at hrest

/-- In front of nothing that has been read, reading forward is reading at random. -/
theorem read_forward {text : List Char} {position offset : Nat} (h : position ≤ offset) :
    (Reader.forward text).read position offset =
      ((Reader.anywhere text).read () offset).map fun read => (read.1, offset + 1) := by
  by_cases hlt : offset < text.length
  · simp [forward, anywhere, h, hlt]
  · simp [forward, anywhere, hlt]

end Reader

/-! ### The cursor as a reader -/

/-- The cursor into an input, read with every character folded. -/
def Cursor.reader (fold : CaseFold) : Reader Cursor where
  read cursor offset := (cursor.read offset).map fun read => (fold.apply read.1, read.2)

theorem Cursor.read_reader (fold : CaseFold) (cursor : Cursor) (offset : Nat) :
    (Cursor.reader fold).read cursor offset =
      (cursor.read offset).map fun read => (fold.apply read.1, read.2) :=
  rfl

/-- What lies in front of the cursor is not read. -/
theorem read_cursorAt_of_lt {cs : List Char} {position offset : Nat} (h : offset < position) :
    (cursorAt cs position).read offset = none := by
  rw [Cursor.read, cursorAt, if_pos h]

/-- The cursor reads an offset exactly if the forward reader of the folded input does, and both
stand behind it then. -/
theorem read_cursorReader (fold : CaseFold) (cs : List Char) (position offset : Nat) :
    (Cursor.reader fold).read (cursorAt cs position) offset =
      ((Reader.forward (cs.map fold.apply)).read position offset).map
        fun read => (read.1, cursorAt cs read.2) := by
  rw [Cursor.read_reader, Reader.forward]
  dsimp only
  by_cases hle : position ≤ offset
  · rw [read_cursorAt hle, Option.map_map]
    by_cases hlt : offset < cs.length
    · rw [List.getElem?_eq_getElem hlt, dif_pos ⟨hle, by rwa [List.length_map]⟩]
      simp
    · rw [List.getElem?_eq_none (by omega), dif_neg (by rw [List.length_map]; omega)]
      rfl
  · rw [read_cursorAt_of_lt (by omega), dif_neg (by omega)]
    rfl

theorem cursorReader_refines (fold : CaseFold) (cs : List Char) :
    (Cursor.reader fold).Refines (fun cursor position => cursor = cursorAt cs position)
      (.forward (cs.map fold.apply)) := by
  rintro cursor position rfl offset c cursor' hread
  rw [read_cursorReader, Option.map_eq_some_iff] at hread
  obtain ⟨⟨c, behind⟩, hread, heq⟩ := hread
  obtain ⟨rfl, rfl⟩ := Prod.mk.inj heq
  exact ⟨behind, hread, rfl⟩

theorem forward_refines (fold : CaseFold) (cs : List Char) :
    (Reader.forward (cs.map fold.apply)).Refines
      (fun position cursor => cursor = cursorAt cs position) (Cursor.reader fold) := by
  rintro position cursor rfl offset c behind hread
  refine ⟨cursorAt cs behind, ?_, rfl⟩
  rw [read_cursorReader, hread, Option.map_some]

/-- What is read without going back is read at random too. -/
theorem forward_refines_anywhere (text : List Char) :
    (Reader.forward text).Refines (fun _ _ => True) (.anywhere text) := by
  intro position _ _ offset c behind hread
  simp only [Reader.forward, Option.dite_none_right_eq_some, Option.some.injEq,
    Prod.mk.injEq] at hread
  obtain ⟨⟨-, hlt⟩, rfl, -⟩ := hread
  exact ⟨(), dif_pos hlt, trivial⟩

namespace Decision

variable {σ τ : Type}

/-- Every branch has its cases in the order of their characters, each with one case. -/
def CasesAscend (d : Decision V) : Prop :=
  ∀ offset onEnd chars, .dispatch offset onEnd chars ∈ d.heads → chars.Pairwise (· < ·)

theorem CasesAscend.guard {check : LengthCheck} {next : Decision V}
    (h : (Decision.guard check next).CasesAscend) : next.CasesAscend :=
  fun offset onEnd chars hmem => h offset onEnd chars (by simp [hmem])

theorem CasesAscend.spell {tests : List CharTest} {next : Decision V}
    (h : (Decision.spell tests next).CasesAscend) : next.CasesAscend :=
  fun offset onEnd chars hmem => h offset onEnd chars (by simp [hmem])

section

variable {offset : Nat} {onEnd : Option V} {cases : List (Char × Decision V)}

theorem CasesAscend.case (h : (dispatch offset onEnd cases).CasesAscend)
    {entry : Char × Decision V} (hentry : entry ∈ cases) : entry.2.CasesAscend :=
  fun offset onEnd chars hmem => h offset onEnd chars (mem_heads_dispatch hentry hmem)

theorem CasesAscend.chars (h : (dispatch offset onEnd cases).CasesAscend) :
    (cases.map Prod.fst).Pairwise (· < ·) :=
  h offset onEnd _ (by rw [heads_dispatch]; exact List.mem_cons_self)

/-- Where cases ascend, bisection finds the case that a search from the front finds. -/
theorem case?_eq_find? (hasc : (cases.map Prod.fst).Pairwise (· < ·)) (c : Char) :
    (dispatch offset onEnd cases).case? c = (cases.find? (·.1 = c)).map Prod.snd := by
  refine Option.ext fun d => ?_
  rw [case?_dispatch_eq_some_iff hasc, Option.map_eq_some_iff]
  constructor
  · intro hmem
    obtain ⟨entry, hfind⟩ : ∃ entry, cases.find? (·.1 = c) = some entry :=
      Option.isSome_iff_exists.1 (List.find?_isSome.2 ⟨(c, d), hmem, by simp⟩)
    have hchar : entry.1 = c := by simpa using List.find?_some hfind
    have heq : entry = (c, d) := List.inj_on_of_nodup_map (hasc.imp Char.ne_of_lt)
      (List.mem_of_find?_eq_some hfind) hmem hchar
    exact ⟨entry, hfind, congrArg Prod.snd heq⟩
  · rintro ⟨entry, hfind, rfl⟩
    have hchar : entry.1 = c := by simpa using List.find?_some hfind
    rw [← hchar]
    exact List.mem_of_find?_eq_some hfind

end

/-! ### Walks over readers -/

/-- A branch goes on with the first case for the character it reads. -/
theorem runOn_dispatch (reader : Reader σ) (length offset : Nat) (onEnd : Option V)
    (cases : List (Char × Decision V)) (state : σ) :
    (dispatch offset onEnd cases).runOn reader length state =
      if length = offset then onEnd
      else (reader.read state offset).bind fun read =>
        (cases.find? (·.1 = read.1)).bind fun entry => entry.2.runOn reader length read.2 := by
  rw [runOn]
  simp only [runOnCase_eq]

/-- A decision finds with a refined reader what it finds with the reader that refines it. -/
theorem runOn_of_refines {related : σ → τ → Prop} {reader : Reader σ} {other : Reader τ}
    (h : reader.Refines related other) {d : Decision V} {length : Nat} {s : σ} {t : τ}
    (hst : related s t) {payload : V} (hrun : d.runOn reader length s = some payload) :
    d.runOn other length t = some payload := by
  induction d using Decision.induction generalizing s t with
  | guard check next ih =>
    rw [runOn] at hrun ⊢
    split at hrun
    · rename_i hadmits
      rw [if_pos hadmits]
      exact ih hst hrun
    · simp at hrun
  | spell tests next ih =>
    rw [runOn, Option.bind_eq_some_iff] at hrun
    obtain ⟨s', hpass, hnext⟩ := hrun
    obtain ⟨t', hpass', hrelated⟩ := h.passAll tests hst hpass
    rw [runOn, hpass', Option.bind_some]
    exact ih hrelated hnext
  | dispatch offset onEnd cases ih =>
    rw [runOn_dispatch] at hrun ⊢
    split at hrun
    · rename_i hlength
      rw [if_pos hlength, hrun]
    · rename_i hlength
      obtain ⟨⟨c, s'⟩, hread, hcase⟩ := Option.bind_eq_some_iff.1 hrun
      obtain ⟨entry, hfind, hnext⟩ := Option.bind_eq_some_iff.1 hcase
      obtain ⟨t', hread', hrelated⟩ := h hst hread
      rw [if_neg hlength, hread', Option.bind_some, hfind, Option.bind_some]
      exact ih entry (List.mem_of_find?_eq_some hfind) hrelated hnext
  | accept v => rwa [runOn] at hrun ⊢
  | miss => simp [runOn] at hrun

theorem passAll_cursorReader (fold : CaseFold) (cursor : Cursor) (tests : List CharTest) :
    (Cursor.reader fold).passAll cursor tests = cursor.passAll fold tests := by
  induction tests generalizing cursor with
  | nil => rfl
  | cons test tests ih =>
    rw [Reader.passAll, Cursor.passAll, Cursor.read_reader, Option.bind_map]
    cases cursor.read test.offset with
    | none => rfl
    | some read => exact ite_congr rfl (fun _ => ih read.2) fun _ => rfl

/-- Evaluation is the walk over the cursor. -/
theorem run_eq_runOn {d : Decision V} (hasc : d.CasesAscend) (fold : CaseFold) (length : Nat)
    (cursor : Cursor) : d.run fold length cursor = d.runOn (Cursor.reader fold) length cursor := by
  induction d using Decision.induction generalizing cursor with
  | guard check next ih => rw [run, runOn, ih hasc.guard]
  | spell tests next ih =>
    rw [run, runOn, passAll_cursorReader]
    cases cursor.passAll fold tests with
    | none => rfl
    | some behind => exact ih hasc.spell behind
  | dispatch offset onEnd cases ih =>
    rw [run_dispatch, runOn_dispatch, Cursor.read_reader, Option.bind_map]
    refine ite_congr rfl (fun _ => rfl) fun _ => congrArg _ (funext fun read => ?_)
    rw [case?_eq_find? hasc.chars, Option.bind_map]
    -- only for the case that is found the two walks have to be compared
    cases hfind : cases.find? (·.1 = fold.apply read.1) with
    | none => simp [hfind]
    | some entry =>
      have hentry := List.mem_of_find?_eq_some hfind
      simpa [hfind] using ih entry hentry (hasc.case hentry) read.2
  | accept payload => rw [run, runOn]
  | miss => rw [run, runOn]

/-- From a position on, a decision that only reads forward needs no other reader than the one that
cannot go back. -/
theorem ReadsFrom.runOn_forward {position : Nat} {d : Decision V} (h : ReadsFrom position d)
    (text : List Char) (length : Nat) :
    d.runOn (.forward text) length position = d.runOn (.anywhere text) length () := by
  induction h with
  | guard _ ih => rw [runOn, runOn, ih]
  | spell_nil _ ih => exact ih
  | spell_cons hle _ ih =>
    rw [runOn_spell_cons, runOn_spell_cons, Reader.read_forward hle, Option.bind_map]
    exact congrArg _ (funext fun read => ite_congr rfl (fun _ => ih) fun _ => rfl)
  | @dispatch position offset onEnd cases hle _ ih =>
    rw [runOn_dispatch, runOn_dispatch, Reader.read_forward hle, Option.bind_map]
    refine ite_congr rfl (fun _ => rfl) fun _ => congrArg _ (funext fun read => ?_)
    dsimp only [Function.comp_apply]
    cases hfind : cases.find? (·.1 = read.1) with
    | none => rfl
    | some entry => exact ih entry (List.mem_of_find?_eq_some hfind)
  | accept => rw [runOn, runOn]
  | miss => rw [runOn, runOn]

/-- Evaluation reads the folded input without going back. -/
theorem eval_eq_evalForward {α : Type} [Subject α] {d : Decision V} (hasc : d.CasesAscend)
    (fold : CaseFold) (input : α) : d.eval fold input = d.evalForward (fold.applyInput input) := by
  have hlength : (fold.applyInput input).length = Subject.length input := List.length_map _
  rw [eval, run_eq_runOn hasc, evalForward, hlength, start_eq_cursorAt]
  refine Option.ext fun payload => ⟨?_, ?_⟩
  · exact runOn_of_refines (cursorReader_refines fold (Subject.chars input)) rfl
  · exact runOn_of_refines (forward_refines fold (Subject.chars input)) rfl

end Decision

/-- **The cursor reads the folded input forward.** Whatever the offsets of a decision, its evaluation
under a fold is the walk over the folded input that misses where an offset lies in front of the last
character read, or beyond the end. If the offsets grow along every path this is the walk that reads
every offset at random; and a payload that any decision finds is found at random as well. -/
theorem forward_reading {α : Type} [Subject α] {d : Decision V} (hasc : d.CasesAscend)
    (fold : CaseFold) (input : α) :
    d.eval fold input = d.evalForward (fold.applyInput input) ∧
      ((∀ offsets, d.IsPath offsets → offsets.Pairwise (· < ·)) →
        d.eval fold input = d.evalAnywhere (fold.applyInput input)) ∧
      ∀ payload, d.eval fold input = some payload →
        d.evalAnywhere (fold.applyInput input) = some payload := by
  have hforward := Decision.eval_eq_evalForward hasc fold input
  refine ⟨hforward, fun hgrow => ?_, fun payload hfound => ?_⟩
  · have hreads : Decision.ReadsFrom 0 d := Decision.readsFrom_of_growsFrom fun offsets hpath =>
      ⟨fun _ _ => Nat.zero_le _, hgrow offsets hpath⟩
    rw [hforward]
    exact hreads.runOn_forward _ _
  · rw [hforward] at hfound
    exact Decision.runOn_of_refines (forward_refines_anywhere _) trivial hfound

/-- Of two decisions that test the same characters, the one that begins with the second finds
nothing: it cannot go back for the first, which a walk at random can. -/
theorem forward_reading_ab : ∃ onward back : Decision Nat,
    onward.CasesAscend ∧ back.CasesAscend ∧
    (∀ offsets, onward.IsPath offsets → offsets.Pairwise (· < ·)) ∧
    onward.eval .ignoreCase "ab" = onward.evalAnywhere ['A', 'B'] ∧
    onward.eval .ignoreCase "ab" = some 0 ∧
    back.eval .ignoreCase "ab" = back.evalForward ['A', 'B'] ∧
    back.eval .ignoreCase "ab" = none ∧ back.evalAnywhere ['A', 'B'] = some 0 := by
  have hfold : CaseFold.ignoreCase.applyInput "ab" = ['A', 'B'] := by decide +kernel
  let onward : Decision Nat := .dispatch 0 none [('A', .spell [⟨1, 'B'⟩] (.accept 0)), ('B', .miss)]
  let back : Decision Nat := .dispatch 1 none [('A', .miss), ('B', .spell [⟨0, 'A'⟩] (.accept 0))]
  have hchars : ['A', 'B'].Pairwise (· < ·) := by decide
  have honwardAsc : onward.CasesAscend := by
    simp +contextual [Decision.CasesAscend, onward, hchars]
  have hbackAsc : back.CasesAscend := by
    simp +contextual [Decision.CasesAscend, back, hchars]
  have hgrow : ∀ offsets, onward.IsPath offsets → offsets.Pairwise (· < ·) := by
    intro offsets hpath
    simp [onward, Decision.isPath_dispatch, Decision.isPath_spell] at hpath
    rcases hpath with rfl | rfl | rfl <;> decide
  obtain ⟨-, honward, -⟩ := hfold ▸ forward_reading honwardAsc .ignoreCase "ab"
  obtain ⟨hback, -, -⟩ := hfold ▸ forward_reading hbackAsc .ignoreCase "ab"
  exact ⟨onward, back, honwardAsc, hbackAsc, hgrow, honward hgrow, (honward hgrow).trans rfl, hback,
    hback.trans rfl, rfl⟩

end Lexicon
