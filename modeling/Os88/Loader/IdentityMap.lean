/-
Module: Os88.Loader.IdentityMap
Purpose: The page tables of the loader map addresses to themselves, at every
  step from switching paging on to the kernel.
Trusted boundary: none beyond Os88.Loader.Paging
Main exports: Tables, Tables.identity, Loading, step_loading, run_loading,
  run_below, identity_paging
-/
import Os88.Loader.Paging

namespace Os88.Loader

open ByteMemory
open Execution
open PageWalk

/-! ## The tables filled in real mode -/

section RealMode

variable (es : BitVec 16) (increment : BitVec 32)

theorem di_next {cx : Nat} {di : BitVec 16} (fits : di.toNat + 4 * (cx + 1) ≤ 2 ^ 16)
    (more : 0 < cx) : (di + 4).toNat = di.toNat + 4 := by
  rw [BitVec.toNat_add]
  show (di.toNat + 4) % 2 ^ 16 = _
  omega

theorem fillTable_changed (cx : Nat) (di : BitVec 16) (esi : BitVec 32)
    (memory : Memory) (fits : di.toNat + 4 * cx ≤ 2 ^ 16) :
    ChangedWithin (16 * es.toNat + di.toNat) (16 * es.toNat + di.toNat + 4 * cx)
      memory (fillTable es increment cx di esi memory) := by
  induction cx generalizing di esi memory with
  | zero => exact fun _ _ => rfl
  | succ cx inductionHypothesis =>
      have stored : ChangedWithin (16 * es.toNat + di.toNat)
          (16 * es.toNat + di.toNat + 4 * (cx + 1)) memory
          (store32 memory (16 * es.toNat + di.toNat) esi) :=
        ChangedWithin.store32 _ (Nat.le_refl _) (by omega)
      rcases Nat.eq_zero_or_pos cx with rfl | more
      · exact stored
      · have position := di_next fits more
        have rest := inductionHypothesis (di + 4) (esi + increment)
          (store32 memory (16 * es.toNat + di.toNat) esi) (by omega)
        exact stored.trans (rest.mono (by omega) (by omega))

/-- The table holds the words that follow one another by the increment. -/
theorem fillTable_words (cx : Nat) (di : BitVec 16) (memory : Memory)
    (word : Nat → BitVec 32) (fits : di.toNat + 4 * cx ≤ 2 ^ 16)
    (next : ∀ i, word i + increment = word (i + 1)) :
    WordsAt (fillTable es increment cx di (word 0) memory)
      (16 * es.toNat + di.toNat) cx word := by
  induction cx generalizing di memory word with
  | zero => exact WordsAt.zero _ _ _
  | succ cx inductionHypothesis =>
      rcases Nat.eq_zero_or_pos cx with rfl | more
      · exact (WordsAt.zero memory _ word).store32 rfl
      · have position := di_next fits more
        have rest := inductionHypothesis (di + 4)
          (store32 memory (16 * es.toNat + di.toNat) (word 0))
          (fun i => word (i + 1)) (by omega) fun i => next (i + 1)
        have frame := fillTable_changed es increment cx (di + 4) (word 1)
          (store32 memory (16 * es.toNat + di.toNat) (word 0)) (by omega)
        rw [fillTable, next 0]
        intro i bound
        cases i with
        | zero =>
            rw [frame.load32 (by omega), Nat.mul_zero, Nat.add_zero, load32_store32]
        | succ i =>
            refine Eq.trans ?_ (rest i (by omega))
            rw [position]
            congr 1
            omega

/-- A table of the entries from page `1024 * d` on. -/
theorem fillTable_identity {f : Nat} (d : Nat) (memory : Memory)
    (base : 16 * es.toNat = 4096 * f) :
    IdentityTable (fillTable es 0x1000 1024 0 (pageEntry (1024 * d)) memory) f d := by
  have words := fillTable_words es 0x1000 1024 0 memory
    (fun i => pageEntry (1024 * d + i)) (by decide) fun i => pageEntry_add _
  rw [base] at words
  exact words

/-- `.paging_loop1` maps the first 4 MB, `.paging_loop2` the next ones. -/
theorem pagingLoop1_table (memory : Memory) :
    IdentityTable (pagingLoop1 memory) 0x2A 0 := by
  have start : pageEntry (1024 * 0) = 0x00000003 := by decide
  rw [pagingLoop1, ← start]
  exact fillTable_identity 0x2A00 0 memory (by decide)

theorem pagingLoop2_table (memory : Memory) :
    IdentityTable (pagingLoop2 memory) 0x2B 1 := by
  have start : pageEntry (1024 * 1) = 0x00400003 := by decide
  rw [pagingLoop2, ← start]
  exact fillTable_identity 0x2B00 1 memory (by decide)

theorem pagingLoop2_changed (memory : Memory) :
    ChangedWithin 0x2B000 0x2C000 memory (pagingLoop2 memory) := by
  rw [pagingLoop2]
  exact fillTable_changed 0x2B00 0x1000 1024 0 _ memory (by decide)

end RealMode

/-! ## The tables in protected mode -/

/-- The first `filled` entries of the tables at 2 MB are stored, and the first
`replaced` entries of the directory point to these tables.  The first two
entries of the directory point to the tables of real mode until then. -/
structure Tables (filled replaced : Nat) (m : Memory) : Prop where
  directory : WordsAt m 0x29000 replaced fun d => pageEntry (0x200 + d)
  kept : ∀ d < 2, replaced ≤ d → load32 m (0x29000 + 4 * d) = pageEntry (0x2A + d)
  first : ∀ d < 2, IdentityTable m (0x2A + d) d
  entries : WordsAt m 0x200000 filled pageEntry
  enough : replaced = 0 ∨ filled = 1048576

namespace Tables

variable {filled replaced : Nat} {m m' : Memory} {linear : BitVec 32}

theorem identityEntry_replaced (tables : Tables filled replaced m) {d : Nat}
    (inside : d < replaced) (few : replaced ≤ 1024) : IdentityEntry m cr3 d := by
  have full : filled = 1048576 := tables.enough.resolve_left (by omega)
  refine ⟨0x200 + d, by omega, tables.directory d inside, ?_⟩
  intro t bound
  show _ = pageEntry (1024 * d + t)
  rw [← tables.entries (1024 * d + t) (by omega)]
  congr 1
  omega

theorem identityEntry_low (tables : Tables filled replaced m) (few : replaced ≤ 1024)
    {d : Nat} (low : d < 2) : IdentityEntry m cr3 d := by
  rcases Nat.lt_or_ge d replaced with inside | outside
  · exact tables.identityEntry_replaced inside few
  · exact ⟨0x2A + d, by omega, tables.kept d low outside, tables.first d low⟩

/-- Below 8 MB every address is mapped to itself. -/
theorem identity (tables : Tables filled replaced m) (few : replaced ≤ 1024)
    (low : linear.toNat < 0x800000) (write : Bool) :
    translate write m cr3 linear = some linear := by
  apply IdentityEntry.translate_self
  apply tables.identityEntry_low few
  rw [directoryIndex_toNat]
  omega

/-- With the whole directory replaced, every address is. -/
theorem identity_all (tables : Tables filled 1024 m) (linear : BitVec 32)
    (write : Bool) : translate write m cr3 linear = some linear := by
  apply IdentityEntry.translate_self
  exact tables.identityEntry_replaced (directoryIndex linear).isLt (Nat.le_refl _)

/-- A change outside the directory and the tables keeps them. -/
theorem changed (tables : Tables filled replaced m) {lo hi : Nat}
    (change : ChangedWithin lo hi m m') (few : replaced ≤ 1024)
    (above : 0x2C000 ≤ lo)
    (below : hi ≤ 0x200000 ∨ 0x200000 + 4 * filled ≤ lo) :
    Tables filled replaced m' := by
  refine ⟨?_, ?_, ?_, ?_, tables.enough⟩
  · exact tables.directory.changed change (by omega)
  · intro d low outside
    rw [change.load32 (by omega)]
    exact tables.kept d low outside
  · intro d low
    exact WordsAt.changed (tables.first d low) change (by omega)
  · exact tables.entries.changed change (by omega)

/-- One more entry of the tables at 2 MB. -/
theorem fill (tables : Tables filled 0 m) {v : BitVec 32} (next : v = pageEntry filled) :
    Tables (filled + 1) 0 (store32 m (0x200000 + 4 * filled) v) := by
  have kept := tables.changed (ChangedWithin.store32 v (Nat.le_refl _) (Nat.le_refl _))
    (Nat.zero_le _) (show 0x2C000 ≤ 0x200000 + 4 * filled by omega)
    (Or.inr (Nat.le_refl _))
  exact ⟨kept.directory, kept.kept, kept.first, tables.entries.store32 next, Or.inl rfl⟩

/-- One more entry of the directory. -/
theorem replace (tables : Tables 1048576 replaced m) (few : replaced < 1024)
    {v : BitVec 32} (next : v = pageEntry (0x200 + replaced)) :
    Tables 1048576 (replaced + 1) (store32 m (0x29000 + 4 * replaced) v) := by
  have change : ChangedWithin (0x29000 + 4 * replaced) (0x29000 + 4 * replaced + 4) m
      (store32 m (0x29000 + 4 * replaced) v) :=
    ChangedWithin.store32 v (Nat.le_refl _) (Nat.le_refl _)
  refine ⟨tables.directory.store32 next, ?_, ?_, ?_, Or.inr rfl⟩
  · intro d low outside
    rw [change.load32 (by omega)]
    exact tables.kept d low (by omega)
  · intro d low
    exact WordsAt.changed (tables.first d low) change (by omega)
  · exact tables.entries.changed change (by omega)

end Tables

/-- What real mode leaves. -/
theorem tables_EnablePaging (memory : Memory) : Tables 0 0 (EnablePaging memory) := by
  rw [EnablePaging]
  have lower := pagingLoop1_table (pagingLoop0 memory)
  generalize pagingLoop1 (pagingLoop0 memory) = low at lower
  have apart := pagingLoop2_changed low
  have upper := pagingLoop2_table low
  generalize pagingLoop2 low = both at apart upper
  have change : ChangedWithin 0x860A 0x29008 both
      (loadPageDirectory (loadPageTables both)) :=
    ((ChangedWithin.store32 _ (by decide) (by decide)).trans
      (ChangedWithin.store32 _ (by decide) (by decide))).trans
      (ChangedWithin.store32 _ (by decide) (by decide))
  refine ⟨WordsAt.zero _ _ _, ?_, ?_, WordsAt.zero _ _ _, Or.inl rfl⟩
  · intro d low _
    rw [loadPageDirectory, load32_store32_apart _ _ _ (by omega), loadPageTables]
    rcases (show d = 0 ∨ d = 1 by omega) with rfl | rfl
    · rw [load32_store32_apart _ _ _ (by decide), load32_store32]
      decide
    · rw [load32_store32]
      decide
  · intro d low
    rcases (show d = 0 ∨ d = 1 by omega) with rfl | rfl
    · exact WordsAt.changed (WordsAt.changed lower apart (by decide)) change (by decide)
    · exact WordsAt.changed upper change (by decide)

/-- Below the page directory real mode writes only to the word that names it. -/
theorem EnablePaging_below (memory : Memory) {a : Nat} (below : a < 0x860A) :
    EnablePaging memory a = memory a := by
  have loop0 : pagingLoop0 memory a = memory a :=
    fillTable_changed 0x2900 0 1024 0 _ memory (by decide) a
      (Or.inl (by show a < 0x29000; omega))
  have loop1 : pagingLoop1 (pagingLoop0 memory) a = pagingLoop0 memory a :=
    fillTable_changed 0x2A00 0x1000 1024 0 _ _ (by decide) a
      (Or.inl (by show a < 0x2A000; omega))
  have loop2 := pagingLoop2_changed (pagingLoop1 (pagingLoop0 memory)) a
    (Or.inl (by omega))
  rw [EnablePaging, loadPageDirectory, store32_apart _ _ _ (Or.inl below), loadPageTables,
    store32_apart _ _ _ (Or.inl (by omega)), store32_apart _ _ _ (Or.inl (by omega)), loop2,
    loop1, loop0]

/-! ## Steps -/

/-- The steps left after the tables at 2 MB, and those left before. -/
def afterTables : Nat := 1024 + 1

def afterCopy : Nat := 1048576 + (1 + afterTables)

/-- How far the code has come, by the number of steps left. -/
inductive Loading : Nat → Cpu → Prop where
  | copying {s : Cpu} (done rest : Nat) (label : s.label = .repMovsb)
      (count : done + rest = 512 * 240) (ecx : s.ecx = BitVec.ofNat 32 rest)
      (esi : s.esi = BitVec.ofNat 32 (0x9000 + done))
      (edi : s.edi = BitVec.ofNat 32 (0x100000 + done)) (esp : s.esp = 0x1F0000)
      (tables : Tables 0 0 s.memory) : Loading (rest + 1 + (1 + afterCopy)) s
  | copied {s : Cpu} (label : s.label = .fillPageTables) (esp : s.esp = 0x1F0000)
      (tables : Tables 0 0 s.memory) : Loading (1 + afterCopy) s
  | filling {s : Cpu} (done rest : Nat) (label : s.label = .pagingLoop3)
      (count : done + (rest + 1) = 1048576) (ecx : s.ecx = BitVec.ofNat 32 (rest + 1))
      (esi : s.esi = BitVec.ofNat 32 (0x200000 + 4 * done))
      (eax : s.eax = pageEntry done) (esp : s.esp = 0x1F0000)
      (tables : Tables done 0 s.memory) : Loading (rest + 1 + (1 + afterTables)) s
  | filled {s : Cpu} (label : s.label = .loadAllPageTables) (esp : s.esp = 0x1F0000)
      (tables : Tables 1048576 0 s.memory) : Loading (1 + afterTables) s
  | replacing {s : Cpu} (done rest : Nat) (label : s.label = .pagingLoop4)
      (count : done + (rest + 1) = 1024) (ecx : s.ecx = BitVec.ofNat 32 (rest + 1))
      (esi : s.esi = BitVec.ofNat 32 (0x29000 + 4 * done))
      (eax : s.eax = pageEntry (0x200 + done)) (esp : s.esp = 0x1F0000)
      (tables : Tables 1048576 done s.memory) : Loading (rest + 1 + 1) s
  | replaced {s : Cpu} (label : s.label = .callKernel) (esp : s.esp = 0x1F0000)
      (tables : Tables 1048576 1024 s.memory) : Loading 1 s
  | called {s : Cpu} (label : s.label = .kernel)
      (tables : Tables 1048576 1024 s.memory) : Loading 0 s

section Counters

theorem toNat_ofNat_small {n : Nat} (small : n < 2 ^ 32) :
    (BitVec.ofNat 32 n).toNat = n := by
  rw [BitVec.toNat_ofNat, Nat.mod_eq_of_lt small]

theorem ofNat_eq_zero_iff {n : Nat} (small : n < 2 ^ 32) :
    BitVec.ofNat 32 n = 0 ↔ n = 0 := by
  rw [← BitVec.toNat_inj, toNat_ofNat_small small]
  rfl

theorem ofNat_previous (n : Nat) : BitVec.ofNat 32 (n + 1) - 1 = BitVec.ofNat 32 n := by
  rw [BitVec.ofNat_add]
  exact BitVec.add_sub_cancel _ _

end Counters

section Steps

variable {s : Cpu} {filled replaced : Nat}

/-- A dword stored below 8 MB goes where its address says. -/
theorem Tables.writeDword {m : Memory} (tables : Tables filled replaced m)
    (few : replaced ≤ 1024) {a : Nat} (low : a + 4 ≤ 0x800000) (v : BitVec 32) :
    writeDword m cr3 (BitVec.ofNat 32 a) v = some (store32 m a v) := by
  have position : (BitVec.ofNat 32 a).toNat = a := toNat_ofNat_small (by omega)
  have stored : PageWalk.writeDword m cr3 (BitVec.ofNat 32 a) v =
      some (store32 m (BitVec.ofNat 32 a).toNat v) := by
    apply writeDword_identity (by omega)
    intro j small
    apply tables.identity few
    rw [BitVec.toNat_add, position, BitVec.toNat_ofNat]
    omega
  rwa [position] at stored

/-- One entry is stored, and the counter tells whether it was the last one. -/
theorem storeEntry_spec (tables : Tables filled replaced s.memory)
    (few : replaced ≤ 1024) {a rest : Nat} (esi : s.esi = BitVec.ofNat 32 a)
    (low : a + 4 ≤ 0x800000) (ecx : s.ecx = BitVec.ofNat 32 (rest + 1))
    (small : rest < 2 ^ 32) (next : Label) :
    ∃ s', s.storeEntry next = some s' ∧
      s'.label = (if rest = 0 then next else s.label) ∧
      s'.memory = store32 s.memory a s.eax ∧ s'.eax = s.eax + 0x1000 ∧
      s'.ecx = BitVec.ofNat 32 rest ∧ s'.esi = BitVec.ofNat 32 (a + 4) ∧
      s'.esp = s.esp := by
  have stored : writeDword s.memory cr3 s.esi s.eax = some (store32 s.memory a s.eax) := by
    rw [esi]
    exact tables.writeDword few low s.eax
  have counter : s.ecx - 1 = BitVec.ofNat 32 rest := by
    rw [ecx, ofNat_previous]
  have position : s.esi + 4 = BitVec.ofNat 32 (a + 4) := by
    rw [esi, BitVec.ofNat_add]
    rfl
  rw [Cpu.storeEntry, stored]
  simp only [Option.bind_eq_bind, Option.bind_some, position, counter,
    ofNat_eq_zero_iff small]
  by_cases last : rest = 0
  · simp only [if_pos last]
    exact ⟨_, rfl, rfl, rfl, rfl, rfl, rfl, rfl⟩
  · simp only [if_neg last]
    exact ⟨_, rfl, rfl, rfl, rfl, rfl, rfl, rfl⟩

/-- One byte of the copy. -/
theorem movsb_spec (tables : Tables 0 0 s.memory) {done rest : Nat}
    (count : done + (rest + 1) = 512 * 240) (ecx : s.ecx = BitVec.ofNat 32 (rest + 1))
    (esi : s.esi = BitVec.ofNat 32 (0x9000 + done))
    (edi : s.edi = BitVec.ofNat 32 (0x100000 + done)) :
    ∃ s', s.movsb = some s' ∧ s'.label = s.label ∧
      s'.memory = store8 s.memory (0x100000 + done) (s.memory (0x9000 + done)) ∧
      s'.ecx = BitVec.ofNat 32 rest ∧
      s'.esi = BitVec.ofNat 32 (0x9000 + (done + 1)) ∧
      s'.edi = BitVec.ofNat 32 (0x100000 + (done + 1)) ∧ s'.esp = s.esp := by
  have more : s.ecx ≠ 0 := by
    rw [ecx, Ne, ofNat_eq_zero_iff (by omega)]
    exact Nat.succ_ne_zero rest
  have source : (BitVec.ofNat 32 (0x9000 + done)).toNat = 0x9000 + done :=
    toNat_ofNat_small (by omega)
  have target : (BitVec.ofNat 32 (0x100000 + done)).toNat = 0x100000 + done :=
    toNat_ofNat_small (by omega)
  have byte : readByte s.memory cr3 s.esi = some (s.memory (0x9000 + done)) := by
    rw [esi, readByte_identity (tables.identity (Nat.zero_le _) (by omega) false), source]
  have stored : writeByte s.memory cr3 s.edi (s.memory (0x9000 + done)) =
      some (store8 s.memory (0x100000 + done) (s.memory (0x9000 + done))) := by
    rw [edi, writeByte_identity (tables.identity (Nat.zero_le _) (by omega) true), target]
  rw [Cpu.movsb, if_neg more]
  simp only [byte, stored, Option.bind_eq_bind, Option.bind_some]
  refine ⟨_, rfl, rfl, rfl, ?_, ?_, ?_, rfl⟩
  · show s.ecx - 1 = _
    rw [ecx, ofNat_previous]
  · show s.esi + 1 = _
    rw [esi, ← Nat.add_assoc, BitVec.ofNat_add (0x9000 + done)]
    rfl
  · show s.edi + 1 = _
    rw [edi, ← Nat.add_assoc, BitVec.ofNat_add (0x100000 + done)]
    rfl

theorem Loading.of_eq {left left' : Nat} (loading : Loading left s)
    (same : left = left') : Loading left' s :=
  same ▸ loading

/-- The copy goes on with the next byte, or ends. -/
theorem step_copying (returnAddress : BitVec 32) {done rest : Nat}
    (label : s.label = .repMovsb) (count : done + rest = 512 * 240)
    (ecx : s.ecx = BitVec.ofNat 32 rest) (esi : s.esi = BitVec.ofNat 32 (0x9000 + done))
    (edi : s.edi = BitVec.ofNat 32 (0x100000 + done)) (esp : s.esp = 0x1F0000)
    (tables : Tables 0 0 s.memory) :
    ∃ s', step returnAddress s = some s' ∧ Loading (rest + (1 + afterCopy)) s' := by
  cases rest with
  | zero =>
      have ended : s.ecx = 0 := ecx
      refine ⟨{ s with label := .fillPageTables }, ?_,
        Loading.of_eq (.copied rfl esp tables) (by omega)⟩
      simp only [step, label, Cpu.movsb, ended, if_true]
  | succ rest =>
      obtain ⟨s', moved, label', memory', ecx', esi', edi', esp'⟩ :=
        movsb_spec tables count ecx esi edi
      have kept : Tables 0 0 s'.memory := by
        rw [memory']
        exact tables.changed (ChangedWithin.store8 _ (Nat.le_refl _) (Nat.le_refl _))
          (Nat.zero_le _) (by omega) (Or.inl (by omega))
      refine ⟨s', by simp only [step, label, moved], ?_⟩
      exact .copying (done + 1) rest (label'.trans label) (by omega) ecx' esi' edi'
        (esp'.trans esp) kept

/-- The tables at 2 MB get their next entry. -/
theorem step_filling (returnAddress : BitVec 32) {done rest : Nat}
    (label : s.label = .pagingLoop3) (count : done + (rest + 1) = 1048576)
    (ecx : s.ecx = BitVec.ofNat 32 (rest + 1))
    (esi : s.esi = BitVec.ofNat 32 (0x200000 + 4 * done)) (eax : s.eax = pageEntry done)
    (esp : s.esp = 0x1F0000) (tables : Tables done 0 s.memory) :
    ∃ s', step returnAddress s = some s' ∧ Loading (rest + (1 + afterTables)) s' := by
  obtain ⟨s', stored, label', memory', eax', ecx', esi', esp'⟩ :=
    storeEntry_spec tables (Nat.zero_le _) esi (by omega) ecx (by omega)
      .loadAllPageTables
  have kept : Tables (done + 1) 0 s'.memory := by
    rw [memory']
    exact tables.fill eax
  refine ⟨s', by simp only [step, label, stored], ?_⟩
  cases rest with
  | zero =>
      have all : done + 1 = 1048576 := count
      rw [all] at kept
      exact Loading.of_eq (.filled label' (esp'.trans esp) kept) (by omega)
  | succ rest =>
      have entry : s'.eax = pageEntry (done + 1) := by
        rw [eax', eax, pageEntry_add]
      exact .filling (done + 1) rest (label'.trans label) (by omega) ecx' esi' entry
        (esp'.trans esp) kept

/-- The directory in use gets its next entry. -/
theorem step_replacing (returnAddress : BitVec 32) {done rest : Nat}
    (label : s.label = .pagingLoop4) (count : done + (rest + 1) = 1024)
    (ecx : s.ecx = BitVec.ofNat 32 (rest + 1))
    (esi : s.esi = BitVec.ofNat 32 (0x29000 + 4 * done))
    (eax : s.eax = pageEntry (0x200 + done)) (esp : s.esp = 0x1F0000)
    (tables : Tables 1048576 done s.memory) :
    ∃ s', step returnAddress s = some s' ∧ Loading (rest + 1) s' := by
  obtain ⟨s', stored, label', memory', eax', ecx', esi', esp'⟩ :=
    storeEntry_spec tables (by omega) esi (by omega) ecx (by omega) .callKernel
  have kept : Tables 1048576 (done + 1) s'.memory := by
    rw [memory']
    exact tables.replace (by omega) eax
  refine ⟨s', by simp only [step, label, stored], ?_⟩
  cases rest with
  | zero =>
      have all : done + 1 = 1024 := count
      rw [all] at kept
      exact .replaced label' (esp'.trans esp) kept
  | succ rest =>
      have entry : s'.eax = pageEntry (0x200 + (done + 1)) := by
        rw [eax', eax, pageEntry_add, Nat.add_assoc]
      exact .replacing (done + 1) rest (label'.trans label) (by omega) ecx' esi' entry
        (esp'.trans esp) kept

/-- The call leaves the return address on the stack. -/
theorem callKernel_spec (returnAddress : BitVec 32) (esp : s.esp = 0x1F0000)
    (tables : Tables 1048576 1024 s.memory) :
    ∃ s', s.callKernel returnAddress = some s' ∧
      s'.memory = store32 s.memory 0x1EFFFC returnAddress ∧ s'.label = .kernel := by
  have top : s.esp - 4 = BitVec.ofNat 32 0x1EFFFC := by
    rw [esp]
    rfl
  have stored : writeDword s.memory cr3 (s.esp - 4) returnAddress =
      some (store32 s.memory 0x1EFFFC returnAddress) := by
    rw [top]
    exact tables.writeDword (Nat.le_refl _) (by decide) returnAddress
  refine ⟨{ s with
    memory := store32 s.memory 0x1EFFFC returnAddress
    eax := 0x8200
    esp := s.esp - 4
    label := .kernel }, ?_, rfl, rfl⟩
  simp only [Cpu.callKernel, stored, Option.bind_eq_bind, Option.bind_some]
  rfl

theorem step_calling (returnAddress : BitVec 32) (label : s.label = .callKernel)
    (esp : s.esp = 0x1F0000) (tables : Tables 1048576 1024 s.memory) :
    ∃ s', step returnAddress s = some s' ∧ Loading 0 s' := by
  obtain ⟨s', called, memory', label'⟩ := callKernel_spec returnAddress esp tables
  have kept : Tables 1048576 1024 s'.memory := by
    rw [memory']
    exact tables.changed (ChangedWithin.store32 _ (Nat.le_refl _) (Nat.le_refl _))
      (Nat.le_refl _) (by decide) (Or.inl (by decide))
  exact ⟨s', by simp only [step, label, called], .called label' kept⟩

/-- Every step succeeds and leaves one step less. -/
theorem step_loading (returnAddress : BitVec 32) {left : Nat} (loading : Loading left s) :
    ∃ s', step returnAddress s = some s' ∧ Loading (left - 1) s' := by
  cases loading with
  | copying done rest label count ecx esi edi esp tables =>
      rw [Nat.succ_add_sub_one]
      exact step_copying returnAddress label count ecx esi edi esp tables
  | copied label esp tables =>
      have left : 1048575 + 1 + (1 + afterTables) = 1 + afterCopy - 1 := by
        rw [afterCopy, Nat.add_sub_cancel_left]
      refine ⟨s.fillPageTables, by simp only [step, label], ?_⟩
      exact Loading.of_eq (.filling 0 1048575 rfl rfl rfl rfl rfl esp tables) left
  | filling done rest label count ecx esi eax esp tables =>
      rw [Nat.succ_add_sub_one]
      exact step_filling returnAddress label count ecx esi eax esp tables
  | filled label esp tables =>
      have first : (0x200003 : BitVec 32) = pageEntry (0x200 + 0) := by decide
      have left : 1023 + 1 + 1 = 1 + afterTables - 1 := by
        rw [afterTables, Nat.add_sub_cancel_left]
      refine ⟨s.loadAllPageTables, by simp only [step, label], ?_⟩
      exact Loading.of_eq (.replacing 0 1023 rfl rfl rfl rfl first esp tables) left
  | replacing done rest label count ecx esi eax esp tables =>
      exact step_replacing returnAddress label count ecx esi eax esp tables
  | replaced label esp tables => exact step_calling returnAddress label esp tables
  | called label tables =>
      exact ⟨s, by simp only [step, label], .called label tables⟩

/-- Any number of steps leaves that many steps less. -/
theorem run_loading (returnAddress : BitVec 32) {left : Nat} (loading : Loading left s)
    (n : Nat) : ∃ s', run returnAddress n s = some s' ∧ Loading (left - n) s' := by
  have ran : ∃ s', countLoop (fun _ => step returnAddress) 0 n s = some s' ∧
      Loading (left - (0 + n)) s' := by
    have start : Loading (left - 0) s := loading
    apply countLoop_rule (fun i s => Loading (left - i) s) start
    intro i s _ _ loading
    rcases step_loading returnAddress loading with ⟨s', stepped, next⟩
    exact ⟨s', stepped, Loading.of_eq next (by omega)⟩
  rwa [Nat.zero_add] at ran

/-- Protected mode stores nothing below the page directory. -/
theorem step_below {returnAddress : BitVec 32} {left : Nat} {s' : Cpu}
    (loading : Loading left s) (stepped : step returnAddress s = some s') {a : Nat}
    (below : a < 0x29000) : s'.memory a = s.memory a := by
  cases loading with
  | copying done rest label count ecx esi edi _ tables =>
      rw [step, label] at stepped
      cases rest with
      | zero =>
          have ended : s.ecx = 0 := ecx
          obtain rfl := Option.some.inj ((if_pos ended).symm.trans stepped)
          rfl
      | succ rest =>
          obtain ⟨_, moved, -, memory', -⟩ := movsb_spec tables count ecx esi edi
          obtain rfl := Option.some.inj (moved.symm.trans stepped)
          rw [memory']
          exact store8_of_ne _ (by omega)
  | copied label =>
      rw [step, label] at stepped
      obtain rfl := Option.some.inj stepped
      rfl
  | filling done rest label count ecx esi _ _ tables =>
      rw [step, label] at stepped
      obtain ⟨_, stored, -, memory', -⟩ := storeEntry_spec tables (Nat.zero_le _) esi
        (by omega) ecx (by omega) .loadAllPageTables
      obtain rfl := Option.some.inj (stored.symm.trans stepped)
      rw [memory']
      exact store32_apart _ _ _ (Or.inl (by omega))
  | filled label =>
      rw [step, label] at stepped
      obtain rfl := Option.some.inj stepped
      rfl
  | replacing done rest label count ecx esi _ _ tables =>
      rw [step, label] at stepped
      obtain ⟨_, stored, -, memory', -⟩ := storeEntry_spec tables (by omega) esi
        (by omega) ecx (by omega) .callKernel
      obtain rfl := Option.some.inj (stored.symm.trans stepped)
      rw [memory']
      exact store32_apart _ _ _ (Or.inl (by omega))
  | replaced label esp tables =>
      rw [step, label] at stepped
      obtain ⟨_, called, memory', -⟩ := callKernel_spec returnAddress esp tables
      obtain rfl := Option.some.inj (called.symm.trans stepped)
      rw [memory']
      exact store32_apart _ _ _ (Or.inl (by omega))
  | called label =>
      rw [step, label] at stepped
      obtain rfl := Option.some.inj stepped
      rfl

/-- No number of steps does. -/
theorem run_below {returnAddress : BitVec 32} {left : Nat} (loading : Loading left s)
    (n : Nat) {s' : Cpu} (ran : run returnAddress n s = some s') {a : Nat}
    (below : a < 0x29000) : s'.memory a = s.memory a := by
  have kept : s'.memory a = s.memory a ∧ ∃ left, Loading left s' := by
    refine countLoop_preserves (fun t => t.memory a = s.memory a ∧ ∃ left, Loading left t)
      ?_ ran ⟨rfl, left, loading⟩
    rintro _ t t' stepped ⟨same, left, reached⟩
    refine ⟨(step_below reached stepped below).trans same, left - 1, ?_⟩
    rcases step_loading returnAddress reached with ⟨_, next, further⟩
    obtain rfl := Option.some.inj (next.symm.trans stepped)
    exact further
  exact kept.1

end Steps

/-! ## What holds at every step -/

/-- The loader, the kernel that it has copied, and the page tables of real
mode. -/
def Reserved (a : Nat) : Prop :=
  (0x7E00 ≤ a ∧ a < 0x7E00 + 1024) ∨
    (0x100000 ≤ a ∧ a < 0x100000 + 512 * 240) ∨ (0x2A000 ≤ a ∧ a < 0x2C000)

/-- The loop at a label is one that stores entries. -/
def Label.StoresEntries (label : Label) : Prop :=
  label = .pagingLoop3 ∨ label = .pagingLoop4

section Everywhere

variable {left : Nat} {s : Cpu}

theorem Loading.tables (loading : Loading left s) :
    ∃ filled replaced, replaced ≤ 1024 ∧ Tables filled replaced s.memory := by
  cases loading with
  | copying _ _ _ _ _ _ _ _ tables => exact ⟨0, 0, Nat.zero_le _, tables⟩
  | copied _ _ tables => exact ⟨0, 0, Nat.zero_le _, tables⟩
  | filling done _ _ _ _ _ _ _ tables => exact ⟨done, 0, Nat.zero_le _, tables⟩
  | filled _ _ tables => exact ⟨1048576, 0, Nat.zero_le _, tables⟩
  | replacing done _ _ count _ _ _ _ tables => exact ⟨1048576, done, by omega, tables⟩
  | replaced _ _ tables => exact ⟨1048576, 1024, Nat.le_refl _, tables⟩
  | called _ tables => exact ⟨1048576, 1024, Nat.le_refl _, tables⟩

theorem Loading.identity (loading : Loading left s) {linear : BitVec 32}
    (low : linear.toNat < 0x800000) (write : Bool) :
    translate write s.memory cr3 linear = some linear := by
  rcases loading.tables with ⟨filled, replaced, few, tables⟩
  exact tables.identity few low write

/-- Entries are stored in the tables at 2 MB or in the directory. -/
theorem Loading.esi (loading : Loading left s) (stores : s.label.StoresEntries) :
    ∃ a, s.esi = BitVec.ofNat 32 a ∧
      ((0x200000 ≤ a ∧ a + 4 ≤ 0x600000) ∨ (0x29000 ≤ a ∧ a + 4 ≤ 0x2A000)) := by
  cases loading with
  | filling done _ _ count _ esi => exact ⟨_, esi, by omega⟩
  | replacing done _ _ count _ esi => exact ⟨_, esi, by omega⟩
  | copying _ _ label => simp [Label.StoresEntries, label] at stores
  | copied label => simp [Label.StoresEntries, label] at stores
  | filled label => simp [Label.StoresEntries, label] at stores
  | replaced label => simp [Label.StoresEntries, label] at stores
  | called label => simp [Label.StoresEntries, label] at stores

theorem Loading.stores (loading : Loading left s) (stores : s.label.StoresEntries) :
    ∀ j < 4, ∃ physical,
      translate true s.memory cr3 (s.esi + BitVec.ofNat 32 j) = some physical ∧
        ¬ Reserved physical.toNat := by
  intro j small
  rcases loading.esi stores with ⟨a, esi, place⟩
  have position : (s.esi + BitVec.ofNat 32 j).toNat = a + j := by
    rw [esi, ← BitVec.ofNat_add, toNat_ofNat_small (by omega)]
  refine ⟨_, loading.identity (by omega) true, ?_⟩
  rw [position, Reserved]
  omega

theorem Loading.identity_all (loading : Loading left s)
    (done : s.label = .callKernel ∨ s.label = .kernel) (linear : BitVec 32)
    (write : Bool) : translate write s.memory cr3 linear = some linear := by
  cases loading with
  | replaced _ _ tables => exact tables.identity_all linear write
  | called _ tables => exact tables.identity_all linear write
  | copying _ _ label => simp [label] at done
  | copied label => simp [label] at done
  | filling _ _ label => simp [label] at done
  | filled label => simp [label] at done
  | replacing _ _ label => simp [label] at done

theorem Loading.kernel (loading : Loading 0 s) : s.label = .kernel := by
  generalize zero : 0 = left at loading
  cases loading with
  | called label => exact label
  | _ => omega

end Everywhere

/-- All steps from `BEGIN_PM` on. -/
def allSteps : Nat := 512 * 240 + 1 + (1 + afterCopy)

theorem loading_beginPm (eax : BitVec 32) (memory : Memory) :
    Loading allSteps (beginPm eax memory) :=
  .copying 0 (512 * 240) rfl rfl rfl rfl rfl rfl (tables_EnablePaging memory)

theorem reaches_kernel (returnAddress eax : BitVec 32) (memory : Memory) :
    ∃ n s, run returnAddress n (beginPm eax memory) = some s ∧ s.label = .kernel := by
  have start := loading_beginPm eax memory
  generalize allSteps = total at start
  rcases run_loading returnAddress start total with ⟨s, ran, loading⟩
  rw [Nat.sub_self] at loading
  exact ⟨total, s, ran, loading.kernel⟩

/-- From `EnablePaging` to the kernel nothing is stored below the word that names
the page directory. -/
theorem beginPm_below {returnAddress eax : BitVec 32} {memory : Memory} {n : Nat} {s : Cpu}
    (ran : run returnAddress n (beginPm eax memory) = some s) {a : Nat}
    (below : a < 0x860A) : s.memory a = memory a := by
  rw [run_below (loading_beginPm eax memory) n ran (by omega)]
  exact EnablePaging_below memory below

/-- From switching paging on to the kernel no step faults.  At every step the
addresses below 8 MB are mapped to themselves, and an entry that is about to be
stored stays out of the loader, the kernel and the first page tables.  When the
loops are done all addresses are mapped to themselves, and the kernel is
reached. -/
theorem identity_paging (returnAddress eax : BitVec 32) (memory : Memory) :
    (∀ n, ∃ s, run returnAddress n (beginPm eax memory) = some s ∧
      (∀ linear : BitVec 32, linear.toNat < 0x800000 →
        ∀ write, translate write s.memory cr3 linear = some linear) ∧
      (s.label.StoresEntries → ∀ j < 4, ∃ physical,
        translate true s.memory cr3 (s.esi + BitVec.ofNat 32 j) = some physical ∧
          ¬ Reserved physical.toNat) ∧
      (s.label = .callKernel ∨ s.label = .kernel →
        ∀ linear write, translate write s.memory cr3 linear = some linear)) ∧
    ∃ n s, run returnAddress n (beginPm eax memory) = some s ∧ s.label = .kernel := by
  constructor
  · intro n
    rcases run_loading returnAddress (loading_beginPm eax memory) n with ⟨s, ran, loading⟩
    exact ⟨s, ran, fun linear low write => loading.identity low write, loading.stores,
      loading.identity_all⟩
  · exact reaches_kernel returnAddress eax memory

end Os88.Loader
