import Ftpii.AddressSpace
import Mathlib.Data.Fin.VecNotation
set_option autoImplicit false

/-!
dol.c: a DOL image is copied to where its sections run, over the memory that also holds the image.
The header is read again before every copy. Caches are left out.
-/

namespace Ftpii
open AddressSpace

abbrev Addr := BitVec 32

abbrev Ram := Memory 32 (BitVec 8)

/-- libogc's `struct __argv`: its size, where argvMagic lies in it, and ARGV_MAGIC. -/
structure ArgvLayout where
  size : Nat
  magicAt : Nat
  ARGV_MAGIC : BitVec 32
  inside : magicAt + 4 ≤ size
  size_le : size ≤ 2 ^ 32

/-! ## The header -/

/-- The sections a `dolheader` describes. -/
inductive Section where
  | text (i : Fin 7)
  | data (i : Fin 11)
  deriving DecidableEq, Repr

/-- Where the fields of a `dolheader` lie in it. -/
def Section.posAt : Section → Nat
  | .text i => 4 * i
  | .data i => 28 + 4 * i

def Section.startAt : Section → Nat
  | .text i => 72 + 4 * i
  | .data i => 100 + 4 * i

def Section.sizeAt : Section → Nat
  | .text i => 144 + 4 * i
  | .data i => 172 + 4 * i

def entryPointAt : Nat := 224

def HEADER_SIZE : Nat := 228

def field (mem : Ram) (dolfile : Addr) (at_ : Nat) : BitVec 32 := word mem (dolfile + BitVec.ofNat 32 at_)

def Section.pos (mem : Ram) (dolfile : Addr) (s : Section) : BitVec 32 := field mem dolfile s.posAt

def Section.start (mem : Ram) (dolfile : Addr) (s : Section) : BitVec 32 :=
  field mem dolfile s.startAt

def Section.size (mem : Ram) (dolfile : Addr) (s : Section) : BitVec 32 := field mem dolfile s.sizeAt

def entryPoint (mem : Ram) (dolfile : Addr) : BitVec 32 := field mem dolfile entryPointAt

/-! ## Loading -/

/-- One round of either loop. -/
def loadSection (dolstart : Addr) (mem : Ram) (s : Section) : Ram :=
  if s.size mem dolstart = 0 ∨ s.start mem dolstart < 0x100 then mem
  else memmove mem (s.start mem dolstart) (dolstart + s.pos mem dolstart) (s.size mem dolstart).toNat

def textSections : List Section := (List.finRange 7).map .text

def dataSections : List Section := (List.finRange 11).map .data

def hasMagic (layout : ArgvLayout) (mem : Ram) (argv : Addr) : Bool :=
  argv ≠ 0 && word mem (argv + BitVec.ofNat 32 layout.magicAt) = layout.ARGV_MAGIC

/-- The returned entry point and the memory then. -/
def loadDolImage (layout : ArgvLayout) (dolstart argv : Addr) (mem : Ram) : BitVec 32 × Ram :=
  let mem := textSections.foldl (loadSection dolstart) mem
  let mem := dataSections.foldl (loadSection dolstart) mem
  let mem :=
    if hasMagic layout mem argv then
      memmove mem (entryPoint mem dolstart + 8) argv layout.size
    else mem
  (entryPoint mem dolstart, mem)

/-! ## What is copied -/

def sections : List Section := textSections ++ dataSections

def Section.Loaded (mem : Ram) (dolfile : Addr) (s : Section) : Prop :=
  s.size mem dolfile ≠ 0 ∧ 0x100 ≤ s.start mem dolfile

instance (mem : Ram) (dolfile : Addr) (s : Section) : Decidable (s.Loaded mem dolfile) :=
  inferInstanceAs (Decidable (_ ∧ _))

def Section.copy (mem : Ram) (dolfile : Addr) (s : Section) : Copy 32 where
  dst := s.start mem dolfile
  src := dolfile + s.pos mem dolfile
  n := (s.size mem dolfile).toNat

def copies (mem : Ram) (dolfile : Addr) (ss : List Section) : List (Copy 32) :=
  (ss.filter fun s => s.Loaded mem dolfile).map (Section.copy mem dolfile)

/-- The sections go to different places, away from the header and from what is copied. -/
structure Placed (mem : Ram) (dolfile : Addr) (ss : List Section) : Prop where
  apart : (copies mem dolfile ss).Pairwise Copy.ApartFrom
  header : ∀ c ∈ copies mem dolfile ss, Apart c.dst c.n dolfile HEADER_SIZE
  source : ∀ c ∈ copies mem dolfile ss, ∀ d ∈ copies mem dolfile ss, Apart c.dst c.n d.src d.n

theorem field_congr {mem mem' : Ram} {dolfile : Addr}
    (h : ∀ a, Within a dolfile HEADER_SIZE → mem' a = mem a) {k : Nat} (hk : k + 4 ≤ HEADER_SIZE) :
    field mem' dolfile k = field mem dolfile k :=
  word_congr h rfl hk (by decide)

theorem Section.at_le (s : Section) :
    s.posAt + 4 ≤ HEADER_SIZE ∧ s.startAt + 4 ≤ HEADER_SIZE ∧ s.sizeAt + 4 ≤ HEADER_SIZE := by
  cases s with
  | text i =>
    have hi := i.isLt
    simp only [posAt, startAt, sizeAt, HEADER_SIZE]
    omega
  | data i =>
    have hi := i.isLt
    simp only [posAt, startAt, sizeAt, HEADER_SIZE]
    omega

theorem loadSection_run (dolfile : Addr) (mem : Ram) (s : Section) :
    loadSection dolfile mem s =
      if s.Loaded mem dolfile then (s.copy mem dolfile).run mem else mem := by
  have hiff : (s.size mem dolfile = 0 ∨ s.start mem dolfile < 0x100) ↔ ¬ s.Loaded mem dolfile := by
    rw [Section.Loaded, not_and_or, not_not, BitVec.not_le]
  by_cases h : s.Loaded mem dolfile
  · rw [loadSection, if_neg (hiff.not.mpr (not_not.mpr h)), if_pos h]
    rfl
  · rw [loadSection, if_pos (hiff.mpr h), if_neg h]

/-- Where the header is still as it was, so is what the loop makes of it. -/
theorem loadSection_congr {mem mem' : Ram} {dolfile : Addr}
    (h : ∀ a, Within a dolfile HEADER_SIZE → mem' a = mem a) (s : Section) :
    loadSection dolfile mem' s =
      if s.Loaded mem dolfile then (s.copy mem dolfile).run mem' else mem' := by
  obtain ⟨hp, hs, hn⟩ := s.at_le
  have hpos : s.pos mem' dolfile = s.pos mem dolfile := field_congr h hp
  have hstart : s.start mem' dolfile = s.start mem dolfile := field_congr h hs
  have hsize : s.size mem' dolfile = s.size mem dolfile := field_congr h hn
  have hloaded : s.Loaded mem' dolfile ↔ s.Loaded mem dolfile := by
    rw [Section.Loaded, Section.Loaded, hstart, hsize]
  have hcopy : s.copy mem' dolfile = s.copy mem dolfile := by
    simp only [Section.copy, hpos, hstart, hsize]
  simp only [loadSection_run, hcopy, hloaded]

theorem copies_concat (mem : Ram) (dolfile : Addr) (ss : List Section) (s : Section) :
    copies mem dolfile (ss ++ [s]) =
      copies mem dolfile ss ++ if s.Loaded mem dolfile then [s.copy mem dolfile] else [] := by
  by_cases h : s.Loaded mem dolfile <;> simp [copies, h]

theorem Placed.init {mem : Ram} {dolfile : Addr} {ss : List Section} {s : Section}
    (h : Placed mem dolfile (ss ++ [s])) : Placed mem dolfile ss := by
  have hsub : ∀ c ∈ copies mem dolfile ss, c ∈ copies mem dolfile (ss ++ [s]) := fun c hc => by
    simp [copies_concat, hc]
  have hpair := h.apart
  rw [copies_concat] at hpair
  exact
    { apart := (List.pairwise_append.mp hpair).1
      header := fun c hc => h.header c (hsub c hc)
      source := fun c hc d hd => h.source c (hsub c hc) d (hsub d hd) }

/-- The loops make all copies at once: no copy disturbs the header, a later source or an earlier
destination. -/
theorem foldl_loadSection {mem : Ram} {dolfile : Addr} {ss : List Section}
    (h : Placed mem dolfile ss) :
    ss.foldl (loadSection dolfile) mem = written (copies mem dolfile ss) mem := by
  induction ss using List.reverseRecOn with
  | nil => rfl
  | append_singleton ss s ih =>
    have hbefore := ih h.init
    have hheader : ∀ a, Within a dolfile HEADER_SIZE →
        written (copies mem dolfile ss) mem a = mem a := fun a ha =>
      written_outside fun c hc hw => h.init.header c hc a hw ha
    rw [List.foldl_append, List.foldl_cons, List.foldl_nil, hbefore, loadSection_congr hheader,
      copies_concat]
    by_cases hl : s.Loaded mem dolfile
    · have hmem : s.copy mem dolfile ∈ copies mem dolfile (ss ++ [s]) := by
        simp [copies_concat, hl]
      have hpair := h.apart
      rw [copies_concat, if_pos hl] at hpair
      have hdst := (List.pairwise_append.mp hpair).2.2
      rw [if_pos hl, if_pos hl]
      refine run_written (fun d hd => hdst d hd _ (by simp)) fun d hd => ?_
      exact h.source d (by simp [copies_concat, hd]) _ hmem
    · rw [if_neg hl, if_neg hl, List.append_nil]

/-! ## The loaded image -/

theorem mem_sections (s : Section) : s ∈ sections := by
  cases s <;> simp [sections, textSections, dataSections]

theorem sections_nodup : sections.Nodup := by decide

def Section.Covers (mem : Ram) (dolfile : Addr) (s : Section) (a : Addr) : Prop :=
  Within a (s.start mem dolfile) (s.size mem dolfile).toNat

instance (mem : Ram) (dolfile : Addr) (s : Section) (a : Addr) :
    Decidable (s.Covers mem dolfile a) :=
  inferInstanceAs (Decidable (Within a _ _))

/-- The sections to be loaded go to different places, away from the image and from argv. -/
structure Loadable (layout : ArgvLayout) (mem : Ram) (dolstart argv : Addr) : Prop where
  apart : ∀ s t : Section, s ≠ t → s.Loaded mem dolstart → t.Loaded mem dolstart →
    ∀ a, s.Covers mem dolstart a → ¬ t.Covers mem dolstart a
  header : ∀ s : Section, s.Loaded mem dolstart →
    ∀ a, s.Covers mem dolstart a → ¬ Within a dolstart HEADER_SIZE
  source : ∀ s t : Section, s.Loaded mem dolstart → t.Loaded mem dolstart →
    ∀ a, s.Covers mem dolstart a →
      ¬ Within a (dolstart + t.pos mem dolstart) (t.size mem dolstart).toNat
  argv : argv ≠ 0 → ∀ s : Section, s.Loaded mem dolstart →
    ∀ a, s.Covers mem dolstart a → ¬ Within a argv layout.size

theorem mem_copies {mem : Ram} {dolfile : Addr} {c : Copy 32} :
    c ∈ copies mem dolfile sections ↔
      ∃ s : Section, s.Loaded mem dolfile ∧ s.copy mem dolfile = c := by
  simp [copies, mem_sections]

theorem Loadable.placed {layout : ArgvLayout} {mem : Ram} {dolstart argv : Addr}
    (h : Loadable layout mem dolstart argv) : Placed mem dolstart sections where
  apart := by
    refine List.pairwise_map.mpr ?_
    have hnodup := sections_nodup.filter fun s => decide (s.Loaded mem dolstart)
    refine hnodup.imp_of_mem fun {s t} hs ht hne => ?_
    have hs' := (List.mem_filter.mp hs).2
    have ht' := (List.mem_filter.mp ht).2
    exact h.apart s t hne (by simpa using hs') (by simpa using ht')
  header c hc := by
    obtain ⟨s, hs, rfl⟩ := mem_copies.mp hc
    exact h.header s hs
  source c hc d hd := by
    obtain ⟨s, hs, rfl⟩ := mem_copies.mp hc
    obtain ⟨t, ht, rfl⟩ := mem_copies.mp hd
    exact h.source s t hs ht

def Overlaid (layout : ArgvLayout) (mem : Ram) (dolstart argv a : Addr) : Prop :=
  hasMagic layout mem argv = true ∧ Within a (entryPoint mem dolstart + 8) layout.size

section Loaded

variable {layout : ArgvLayout} {mem : Ram} {dolstart argv : Addr}
  (h : Loadable layout mem dolstart argv)

include h

theorem Loadable.image {a : Addr} {s : Section} (hs : s.Loaded mem dolstart)
    (ha : s.Covers mem dolstart a) : written (copies mem dolstart sections) mem a =
      mem (dolstart + s.pos mem dolstart + (a - s.start mem dolstart)) :=
  written_within (c := s.copy mem dolstart) h.placed.apart (mem_copies.mpr ⟨s, hs, rfl⟩) ha

omit h in
theorem image_outside {a : Addr}
    (ha : ∀ s : Section, s.Loaded mem dolstart → ¬ s.Covers mem dolstart a) :
    written (copies mem dolstart sections) mem a = mem a := by
  refine written_outside fun c hc => ?_
  obtain ⟨s, hs, rfl⟩ := mem_copies.mp hc
  exact ha s hs

/-- The entry point and argv are read from memory that is still as it was. -/
theorem Loadable.run : loadDolImage layout dolstart argv mem =
    let image := written (copies mem dolstart sections) mem
    let final := if hasMagic layout mem argv then
      memmove image (entryPoint mem dolstart + 8) argv layout.size else image
    (entryPoint final dolstart, final) := by
  have hfold : dataSections.foldl (loadSection dolstart)
      (textSections.foldl (loadSection dolstart) mem) = written (copies mem dolstart sections) mem := by
    rw [← List.foldl_append]
    exact foldl_loadSection h.placed
  have hentry : entryPoint (written (copies mem dolstart sections) mem) dolstart =
      entryPoint mem dolstart := by
    refine field_congr (fun a ha => image_outside fun s hs hc => ?_) (by decide)
    exact h.header s hs a hc ha
  have hmagic : hasMagic layout (written (copies mem dolstart sections) mem) argv =
      hasMagic layout mem argv := by
    by_cases h0 : argv = 0
    · simp [hasMagic, h0]
    · have hkept : ∀ a, Within a argv layout.size →
          written (copies mem dolstart sections) mem a = mem a := fun a ha =>
        image_outside fun s hs hc => h.argv h0 s hs a hc ha
      have hword := word_congr hkept rfl layout.inside layout.size_le
      simp only [hasMagic, hword]
  simp only [loadDolImage, hfold, hentry, hmagic]

theorem Loadable.overlaid {a : Addr} (ha : Overlaid layout mem dolstart argv a) :
    (loadDolImage layout dolstart argv mem).2 a =
      mem (argv + (a - (entryPoint mem dolstart + 8))) := by
  obtain ⟨hmagic, hin⟩ := ha
  have h0 : argv ≠ 0 := by
    rintro rfl
    simp [hasMagic] at hmagic
  have hfrom : Within (argv + (a - (entryPoint mem dolstart + 8))) argv layout.size :=
    within_shift.mpr hin
  rw [h.run]
  simp only [if_pos hmagic, memmove_within hin]
  exact image_outside fun s hs hc => h.argv h0 s hs _ hc hfrom

theorem Loadable.apart_argv {a : Addr} (ha : ¬ Overlaid layout mem dolstart argv a) :
    (loadDolImage layout dolstart argv mem).2 a = written (copies mem dolstart sections) mem a := by
  rw [h.run]
  by_cases hmagic : hasMagic layout mem argv = true
  · have hout : ¬ Within a (entryPoint mem dolstart + 8) layout.size := fun hin => ha ⟨hmagic, hin⟩
    simp only [if_pos hmagic, memmove_outside hout]
  · simp only [if_neg hmagic]

theorem Loadable.entry : (loadDolImage layout dolstart argv mem).1 =
    entryPoint (loadDolImage layout dolstart argv mem).2 dolstart := by
  rw [h.run]

end Loaded

/-- Every section to be loaded is a copy of its part of the image, overlaid by argv behind the
entry point, every other address is as it was, and the entry point is the header's unless the copy
of argv covers it. -/
theorem load_dol_image_exact {layout : ArgvLayout} {mem : Ram} {dolstart argv : Addr}
    (h : Loadable layout mem dolstart argv) :
    let r := loadDolImage layout dolstart argv mem
    let Overlaid := Overlaid layout mem dolstart argv
    (∀ s : Section, s.Loaded mem dolstart → ∀ a, s.Covers mem dolstart a → ¬ Overlaid a →
        r.2 a = mem (dolstart + s.pos mem dolstart + (a - s.start mem dolstart))) ∧
      (∀ a, Overlaid a → r.2 a = mem (argv + (a - (entryPoint mem dolstart + 8)))) ∧
      (∀ a, (∀ s : Section, s.Loaded mem dolstart → ¬ s.Covers mem dolstart a) → ¬ Overlaid a →
        r.2 a = mem a) ∧
      ((∀ a, Within a (dolstart + 224) 4 → ¬ Overlaid a) → r.1 = entryPoint mem dolstart) := by
  refine ⟨fun s hs a ha hnot => ?_, fun a ha => h.overlaid ha, fun a ha hnot => ?_, fun hentry => ?_⟩
  · rw [h.apart_argv hnot]
    exact h.image hs ha
  · rw [h.apart_argv hnot]
    exact image_outside ha
  · rw [h.entry]
    refine word_congr (p := dolstart + 224) (n := 4) (k := 0) (fun a ha => ?_) ?_ (by decide)
      (by decide)
    · rw [h.apart_argv (hentry a ha)]
      have hheader : Within a dolstart HEADER_SIZE := by
        simp only [Within, HEADER_SIZE] at ha ⊢
        bv_omega
      exact image_outside fun s hs hc => h.header s hs a hc hheader
    · rw [BitVec.ofNat_eq_ofNat, BitVec.add_zero]
      rfl

def bytesAt (p : Addr) (bytes : List (BitVec 8)) (mem : Ram) : Ram :=
  fun a => bytes.getD (a - p).toNat (mem a)

def wiiArgv : ArgvLayout where
  size := 24
  magicAt := 0
  ARGV_MAGIC := 0x5f617267
  inside := by decide
  size_le := by decide

/-- An image of a text and a data section of four bytes each, and an argv. -/
def smallImage : Ram :=
  bytesAt 0x92000000 [0, 0, 1, 0] <| bytesAt 0x92000048 [0x80, 0, 0x31, 0] <|
    bytesAt 0x92000090 [0, 0, 0, 4] <| bytesAt 0x9200001c [0, 0, 1, 4] <|
    bytesAt 0x92000064 [0x80, 0, 0x40, 0] <| bytesAt 0x920000ac [0, 0, 0, 4] <|
    bytesAt 0x920000e0 [0x80, 0, 0x31, 0] <| bytesAt 0x92000100 [1, 2, 3, 4, 5, 6, 7, 8] <|
    bytesAt 0x93000000 [0x5f, 0x61, 0x72, 0x67, 0, 0, 0, 9] fun _ => 0

theorem smallImage_sections (s : Section) (hs : s.Loaded smallImage 0x92000000) :
    s.size smallImage 0x92000000 = 4 ∧
      (s = .text 0 ∧ s.start smallImage 0x92000000 = 0x80003100 ∧
          s.pos smallImage 0x92000000 = 0x100 ∨
        s = .data 0 ∧ s.start smallImage 0x92000000 = 0x80004000 ∧
          s.pos smallImage 0x92000000 = 0x104) :=
  (by decide +kernel : ∀ s ∈ sections, s.Loaded smallImage 0x92000000 →
    s.size smallImage 0x92000000 = 4 ∧
      (s = .text 0 ∧ s.start smallImage 0x92000000 = 0x80003100 ∧
          s.pos smallImage 0x92000000 = 0x100 ∨
        s = .data 0 ∧ s.start smallImage 0x92000000 = 0x80004000 ∧
          s.pos smallImage 0x92000000 = 0x104)) s (mem_sections s) hs

theorem smallImage_loadable : Loadable wiiArgv smallImage 0x92000000 0x93000000 := by
  have happart : ∀ (q : Addr) (m : Nat), 0x80004004 ≤ q.toNat → q.toNat + m ≤ 2 ^ 32 →
      ∀ s : Section, s.Loaded smallImage 0x92000000 →
        ∀ a, s.Covers smallImage 0x92000000 a → ¬ Within a q m := by
    intro q m hq hm s hs
    obtain ⟨hsize, ⟨-, hstart, -⟩ | ⟨-, hstart, -⟩⟩ := smallImage_sections s hs
    · simp only [Section.Covers, hstart, hsize]
      exact apart_of_le (le_trans (by decide) hq) hm
    · simp only [Section.Covers, hstart, hsize]
      exact apart_of_le hq hm
  refine ⟨fun s t hne hs ht => ?_, happart _ _ (by decide) (by decide), fun s t hs ht => ?_,
    fun _ => happart _ _ (by decide) (by decide)⟩
  · obtain ⟨hsize, ⟨rfl, hstart, -⟩ | ⟨rfl, hstart, -⟩⟩ := smallImage_sections s hs
    · obtain ⟨hsize', ⟨rfl, hstart', -⟩ | ⟨rfl, hstart', -⟩⟩ := smallImage_sections t ht
      · exact absurd rfl hne
      · simp only [Section.Covers, hstart, hsize, hstart', hsize']
        exact apart_of_le (by decide) (by decide)
    · obtain ⟨hsize', ⟨rfl, hstart', -⟩ | ⟨rfl, hstart', -⟩⟩ := smallImage_sections t ht
      · simp only [Section.Covers, hstart, hsize, hstart', hsize']
        exact (apart_of_le (by decide) (by decide)).symm
      · exact absurd rfl hne
  · obtain ⟨hsize, ⟨-, -, hpos⟩ | ⟨-, -, hpos⟩⟩ := smallImage_sections t ht
    · rw [hsize, hpos]
      exact happart _ _ (by decide) (by decide) s hs
    · rw [hsize, hpos]
      exact happart _ _ (by decide) (by decide) s hs

/-- A byte of either section, the magic and the next word of argv behind the entry point, and the entry
point. -/
theorem load_dol_image_exact_small :
    let r := loadDolImage wiiArgv 0x92000000 0x93000000 smallImage
    r.2 0x80003102 = 3 ∧ r.2 0x80004001 = 6 ∧ r.2 0x80003108 = 0x5f ∧ r.2 0x8000310f = 9 ∧
      r.1 = 0x80003100 := by
  obtain ⟨hsection, hargv, -, hentry⟩ := load_dol_image_exact smallImage_loadable
  have hpoint : entryPoint smallImage 0x92000000 = 0x80003100 := by decide +kernel
  have hmagic : hasMagic wiiArgv smallImage 0x93000000 = true := by decide +kernel
  have hnot : ∀ a, ¬ Within a 0x80003108 24 →
      ¬ Overlaid wiiArgv smallImage 0x92000000 0x93000000 a := by
    intro a ha hover
    have hin := hover.2
    rw [hpoint] at hin
    exact ha hin
  refine ⟨?_, ?_, ?_, ?_, ?_⟩
  · rw [hsection (.text 0) (by decide +kernel) _ (by decide +kernel) (hnot _ (by decide))]
    decide +kernel
  · rw [hsection (.data 0) (by decide +kernel) _ (by decide +kernel) (hnot _ (by decide))]
    decide +kernel
  · rw [hargv _ ⟨hmagic, by decide +kernel⟩]
    decide +kernel
  · rw [hargv _ ⟨hmagic, by decide +kernel⟩]
    decide +kernel
  · rw [hentry fun a ha => hnot a ((apart_of_le (by decide) (by decide)).symm a ha), hpoint]

/-- An entry point eight bytes before its own field: the copy of argv overwrites the field, and the
first word of argv is returned. -/
def entryInHeader : Ram :=
  bytesAt 0x920000e0 [0x92, 0, 0, 0xd8] <| bytesAt 0x90000000 [0x5f, 0x61, 0x72, 0x67] fun _ => 0

theorem entry_overwritten :
    Loadable wiiArgv entryInHeader 0x92000000 0x90000000 ∧
      entryPoint entryInHeader 0x92000000 = 0x920000d8 ∧
      (loadDolImage wiiArgv 0x92000000 0x90000000 entryInHeader).1 = 0x5f617267 := by
  have hnone : ∀ s : Section, ¬ s.Loaded entryInHeader 0x92000000 := fun s =>
    (by decide +kernel : ∀ s ∈ sections, ¬ s.Loaded entryInHeader 0x92000000) s (mem_sections s)
  refine ⟨⟨fun s _ _ hs => absurd hs (hnone s), fun s hs => absurd hs (hnone s),
    fun s _ hs => absurd hs (hnone s), fun _ s hs => absurd hs (hnone s)⟩, ?_, ?_⟩
  · decide +kernel
  · decide +kernel

end Ftpii
