import PatternFinder.Lowering.Tree
import PatternFinder.Proofs.Occurrence
import PatternFinder.Proofs.Reordering

/-! What the fingerprint is the hash of: when it tells two compilations apart. Paths are written one
behind the other with nothing between them, so a path may go on over what another compilation writes
behind it. -/
namespace PatternFinder

section Bytes

private theorem toList_loop (bytes : ByteArray) (i : Nat) (acc : List UInt8) :
    ByteArray.toList.loop bytes i acc = acc.reverse ++ bytes.data.toList.drop i := by
  fun_induction ByteArray.toList.loop bytes i acc with
  | case1 i acc hi ih =>
    have hi' : i < bytes.data.toList.length := hi
    rw [ih, List.drop_eq_getElem_cons hi', List.reverse_cons, List.append_assoc,
      List.singleton_append]
    congr 2
    exact getElem!_pos bytes.data i hi
  | case2 i acc hi =>
    have hi' : bytes.data.toList.length ≤ i := Nat.not_lt.mp hi
    rw [List.drop_eq_nil_of_le hi', List.append_nil]

theorem toList_eq_data (bytes : ByteArray) : bytes.toList = bytes.data.toList :=
  toList_loop bytes 0 []

theorem toUTF8_append (s t : String) :
    (s ++ t).toUTF8.toList = s.toUTF8.toList ++ t.toUTF8.toList := by
  simp [toList_eq_data]

/-- A text whose bytes go on from those of another text goes on from that text. -/
theorem exists_append_of_toUTF8 {s t : String} {bytes : List UInt8}
    (h : t.toUTF8.toList = s.toUTF8.toList ++ bytes) :
    ∃ more : String, t = s ++ more ∧ bytes = more.toUTF8.toList := by
  have hbytes : s.toList.utf8Encode ++ bytes.toByteArray = t.toList.utf8Encode := by
    rw [String.utf8Encode_toList, String.utf8Encode_toList]
    refine ByteArray.ext (Array.toList_inj.mp ?_)
    rw [toList_eq_data, toList_eq_data] at h
    simpa using h.symm
  obtain ⟨rest, hrest⟩ := List.isPrefix_of_utf8Encode_append_eq_utf8Encode _ hbytes
  have ht : t = s ++ String.ofList rest := by
    rw [← String.toList_inj, String.toList_append, String.toList_ofList, hrest]
  refine ⟨String.ofList rest, ht, ?_⟩
  rw [ht, toUTF8_append] at h
  exact (List.append_cancel_left h).symm

end Bytes

namespace Compilation

@[simp] theorem length_littleEndian (w : UInt64) : (littleEndian w).length = 8 := by
  simp [littleEndian]

theorem toNat_littleEndian (w : UInt64) : (littleEndian w).map UInt8.toNat =
    (List.range 8).map fun i => w.toNat / 256 ^ i % 256 := by
  rw [littleEndian, List.map_map]
  refine List.map_congr_left fun i hi => ?_
  have hi : i < 8 := List.mem_range.mp hi
  have hpow : 2 ^ (8 * i) = 256 ^ i := Nat.pow_mul 2 8 i
  have hshift : 8 * i % 64 = 8 * i := Nat.mod_eq_of_lt (by omega)
  simp [Nat.shiftRight_eq_div_pow, hshift, hpow]

private theorem mod_pow_eq {n m k : Nat} (h : ∀ i < k, n / 256 ^ i % 256 = m / 256 ^ i % 256) :
    n % 256 ^ k = m % 256 ^ k := by
  induction k with
  | zero => rw [Nat.pow_zero, Nat.mod_one, Nat.mod_one]
  | succ k ih =>
    have hlow := ih fun i hi => h i (Nat.lt_succ_of_lt hi)
    rw [Nat.mod_pow_succ, Nat.mod_pow_succ, hlow, h k k.lt_succ_self]

theorem littleEndian_injective {w v : UInt64} (h : littleEndian w = littleEndian v) : w = v := by
  have hdigits := congrArg (List.map UInt8.toNat) h
  rw [toNat_littleEndian, toNat_littleEndian, List.map_inj_left] at hdigits
  have hmod := mod_pow_eq fun i hi => hdigits i (List.mem_range.mpr hi)
  have hlt : ∀ u : UInt64, u.toNat < 256 ^ 8 := fun u => u.toNat_lt
  rw [Nat.mod_eq_of_lt (hlt w), Nat.mod_eq_of_lt (hlt v)] at hmod
  exact UInt64.toNat_inj.mp hmod

/-- The paths and the content hashes of the files. -/
def files (c : Compilation) : List (String × UInt64) :=
  c.trees.map fun t => (t.path, t.contentHash)

/-- What is hashed of one file. -/
def fileBytes (file : String × UInt64) : List UInt8 :=
  file.1.toUTF8.toList ++ littleEndian file.2

theorem fingerprintBytes_eq (c : Compilation) :
    c.fingerprintBytes = (c.files.mergeSort fileLe).flatMap fileBytes := rfl

/-- The two lists agree up to a file whose path goes on, in the second list, over the hash of the
file and the files behind it in the first. -/
inductive RunsOver : List (String × UInt64) → List (String × UInt64) → Prop
  | here {path more : String} {hash hash' : UInt64} {fs gs : List (String × UInt64)}
    (hmore : more ≠ "") (hbytes : littleEndian hash ++ fs.flatMap fileBytes =
      more.toUTF8.toList ++ (littleEndian hash' ++ gs.flatMap fileBytes)) :
    RunsOver ((path, hash) :: fs) ((path ++ more, hash') :: gs)
  | later (file : String × UInt64) {fs gs : List (String × UInt64)} (h : RunsOver fs gs) :
    RunsOver (file :: fs) (file :: gs)

namespace RunsOver

variable {fs gs : List (String × UInt64)}

theorem bytes_eq (h : RunsOver fs gs) : fs.flatMap fileBytes = gs.flatMap fileBytes := by
  induction h with
  | here _ hbytes =>
    simp only [List.flatMap_cons, fileBytes, toUTF8_append, List.append_assoc, hbytes]
  | later file _ ih => rw [List.flatMap_cons, List.flatMap_cons, ih]

theorem exists_longer (h : RunsOver fs gs) :
    ∃ f ∈ fs, ∃ g ∈ gs, ∃ more, more ≠ "" ∧ g.1 = f.1 ++ more := by
  induction h with
  | here hmore _ => exact ⟨_, List.mem_cons_self, _, List.mem_cons_self, _, hmore, rfl⟩
  | later file _ ih =>
    obtain ⟨f, hf, g, hg, hlonger⟩ := ih
    exact ⟨f, List.mem_cons_of_mem _ hf, g, List.mem_cons_of_mem _ hg, hlonger⟩

/-- What the bytes say of the first two files when the path of the first is the shorter one. -/
theorem of_cons {path path' : String} {hash hash' : UInt64} {bytes : List UInt8}
    (hpath : path'.toUTF8.toList = path.toUTF8.toList ++ bytes)
    (hbytes : littleEndian hash ++ fs.flatMap fileBytes =
      bytes ++ (littleEndian hash' ++ gs.flatMap fileBytes)) :
    ((path, hash) = (path', hash') ∧ fs.flatMap fileBytes = gs.flatMap fileBytes) ∨
      RunsOver ((path, hash) :: fs) ((path', hash') :: gs) := by
  obtain ⟨more, rfl, rfl⟩ := exists_append_of_toUTF8 hpath
  by_cases hmore : more = ""
  · subst hmore
    have hsplit : littleEndian hash ++ fs.flatMap fileBytes =
        littleEndian hash' ++ gs.flatMap fileBytes := by
      simpa [toList_eq_data] using hbytes
    have hlength : (littleEndian hash).length = (littleEndian hash').length := by simp
    obtain ⟨hhash, hrest⟩ := List.append_inj hsplit hlength
    exact .inl ⟨by rw [littleEndian_injective hhash, String.append_empty], hrest⟩
  · exact .inr (.here hmore hbytes)

end RunsOver

theorem fileBytes_ne_nil (file : String × UInt64) : fileBytes file ≠ [] := by
  intro h
  have hlength := congrArg List.length h
  simp [fileBytes] at hlength

/-- Files are written alike only if they are the same or one path runs over what follows another. -/
theorem flatMap_fileBytes_eq_iff {fs gs : List (String × UInt64)} :
    fs.flatMap fileBytes = gs.flatMap fileBytes ↔ fs = gs ∨ RunsOver fs gs ∨ RunsOver gs fs := by
  constructor
  · intro h
    induction fs generalizing gs with
    | nil =>
      cases gs with
      | nil => exact .inl rfl
      | cons g gs =>
        rw [List.flatMap_nil, List.flatMap_cons] at h
        exact absurd (List.append_eq_nil_iff.mp h.symm).1 (fileBytes_ne_nil g)
    | cons f fs ih =>
      cases gs with
      | nil =>
        rw [List.flatMap_nil, List.flatMap_cons] at h
        exact absurd (List.append_eq_nil_iff.mp h).1 (fileBytes_ne_nil f)
      | cons g gs =>
        rw [List.flatMap_cons, List.flatMap_cons, fileBytes, fileBytes, List.append_assoc,
          List.append_assoc] at h
        have hsame : f = g ∧ fs.flatMap fileBytes = gs.flatMap fileBytes →
            f :: fs = g :: gs ∨ RunsOver (f :: fs) (g :: gs) ∨ RunsOver (g :: gs) (f :: fs) := by
          rintro ⟨rfl, hrest⟩
          rcases ih hrest with rfl | hover | hover
          · exact .inl rfl
          · exact .inr (.inl (.later f hover))
          · exact .inr (.inr (.later f hover))
        -- The first place where the texts are cut differently is at the end of the shorter path.
        rcases List.append_eq_append_iff.mp h with ⟨bytes, hpath, hbytes⟩ | ⟨bytes, hpath, hbytes⟩
        · rcases RunsOver.of_cons hpath hbytes with heq | hover
          · exact hsame heq
          · exact .inr (.inl hover)
        · rcases RunsOver.of_cons hpath hbytes with ⟨heq, hrest⟩ | hover
          · exact hsame ⟨heq.symm, hrest.symm⟩
          · exact .inr (.inr hover)
  · rintro (rfl | hover | hover)
    · rfl
    · exact hover.bytes_eq
    · exact hover.bytes_eq.symm

private theorem sorted_files_eq_iff {fs gs : List (String × UInt64)} :
    fs.mergeSort fileLe = gs.mergeSort fileLe ↔ fs.Perm gs := by
  constructor
  · intro h
    have hperm := List.mergeSort_perm gs fileLe
    rw [← h] at hperm
    exact (List.mergeSort_perm fs fileLe).symm.trans hperm
  · exact mergeSort_eq_of_perm_of_antisymm fileLe (fun _ _ _ => fileLe_trans) fileLe_total
      (fun _ _ => fileLe_antisymm)

/-- Two compilations are hashed alike exactly when they have the same files with the same contents,
in whatever order, or, in order of path, agree up to a file whose path in one runs over what the
other has behind it. Where no path goes on from a path of the other compilation, it is the first. -/
theorem fingerprintBytes_eq_iff (c d : Compilation) :
    (c.fingerprintBytes = d.fingerprintBytes ↔ c.files.Perm d.files ∨
      RunsOver (c.files.mergeSort fileLe) (d.files.mergeSort fileLe) ∨
        RunsOver (d.files.mergeSort fileLe) (c.files.mergeSort fileLe)) ∧
    ((∀ f ∈ c.files, ∀ g ∈ d.files, ∀ more, more ≠ "" → g.1 ≠ f.1 ++ more ∧ f.1 ≠ g.1 ++ more) →
      (c.fingerprintBytes = d.fingerprintBytes ↔ c.files.Perm d.files)) := by
  have hiff : c.fingerprintBytes = d.fingerprintBytes ↔ c.files.Perm d.files ∨
      RunsOver (c.files.mergeSort fileLe) (d.files.mergeSort fileLe) ∨
        RunsOver (d.files.mergeSort fileLe) (c.files.mergeSort fileLe) := by
    rw [fingerprintBytes_eq, fingerprintBytes_eq, flatMap_fileBytes_eq_iff, sorted_files_eq_iff]
  refine ⟨hiff, fun hapart => ?_⟩
  rw [hiff, or_iff_left]
  rintro (hover | hover)
  · obtain ⟨f, hf, g, hg, more, hmore, hlonger⟩ := hover.exists_longer
    exact (hapart f (List.mem_mergeSort.mp hf) g (List.mem_mergeSort.mp hg) more hmore).1 hlonger
  · obtain ⟨g, hg, f, hf, more, hmore, hlonger⟩ := hover.exists_longer
    exact (hapart f (List.mem_mergeSort.mp hf) g (List.mem_mergeSort.mp hg) more hmore).2 hlonger

/-- A file that declares one empty class. -/
def classTree (path name : String) : SourceTree :=
  let stop := name.length + 10
  Lowering.sourceTree (.ofBytes path ("class " ++ name ++ " \x7b \x7d").toUTF8)
    (.plain "compilation_unit" 0 stop none [.plain "class_declaration" 0 stop none
      [.plain "identifier" 6 (stop - 4) (some .name) [],
        .plain "declaration_list" (stop - 3) stop (some .body) []]])

def classPair : Compilation := .ofTrees [classTree "A.cs" "AlYm", classTree "B.cs" "B"] true

def classPairTurned : Compilation := .ofTrees [classTree "B.cs" "B", classTree "A.cs" "AlYm"] true

/-- Paths of one length do not go on from one another. -/
theorem fingerprintBytes_eq_iff_turned :
    classPair.fingerprintBytes = classPairTurned.fingerprintBytes := by
  refine ((fingerprintBytes_eq_iff classPair classPairTurned).2 ?_).mpr (List.Perm.swap _ _ _)
  have hpair : ∀ f ∈ classPair.files, f.1.length = 4 := by
    rintro f (_ | ⟨_, _ | ⟨_, ⟨⟩⟩⟩) <;> rfl
  have hturned : ∀ g ∈ classPairTurned.files, g.1.length = 4 := by
    rintro g (_ | ⟨_, _ | ⟨_, ⟨⟩⟩⟩) <;> rfl
  intro f hf g hg more hmore
  have hlength : more.length ≠ 0 := fun h => hmore (String.length_eq_zero_iff.mp h)
  have hne : ∀ s t : String, s.length = 4 → t.length = 4 → s ≠ t ++ more := by
    rintro _ t hs ht rfl
    rw [String.length_append] at hs
    omega
  exact ⟨hne _ _ (hturned g hg) (hpair f hf), hne _ _ (hpair f hf) (hturned g hg)⟩

/-- The second file alone, at a path that spells out the path and the hash of the first. -/
def classAlone : Compilation := .ofTrees [classTree "A.cs2jvFQe7CB.cs" "B"] true

private theorem contentHash_alym : (classTree "A.cs" "AlYm").contentHash = 0x4337655146766a32 := by
  decide +kernel

/-- A compilation of two files is hashed as one of a single file is. -/
theorem path_taken_for_hash : classPair.fingerprintBytes = classAlone.fingerprintBytes ∧
    ¬classPair.files.Perm classAlone.files := by
  constructor
  · have hpair : classPair.files =
        [("A.cs", 0x4337655146766a32), ("B.cs", (classTree "B.cs" "B").contentHash)] := by
      rw [← contentHash_alym]
      rfl
    have halone : classAlone.files =
        [("A.cs" ++ "2jvFQe7CB.cs", (classTree "B.cs" "B").contentHash)] := rfl
    have hsorted : classPair.files.mergeSort fileLe = classPair.files := by
      rw [hpair]
      exact List.mergeSort_of_pairwise (List.pairwise_pair.mpr rfl)
    have hspelled : littleEndian 0x4337655146766a32 ++ "B.cs".toUTF8.toList =
        "2jvFQe7CB.cs".toUTF8.toList := by
      rw [toList_eq_data, toList_eq_data]
      decide
    rw [fingerprintBytes_eq, fingerprintBytes_eq, hsorted, hpair, halone, List.mergeSort_singleton]
    refine (RunsOver.here (by decide) ?_).bytes_eq
    rw [← hspelled, List.append_assoc, List.flatMap_singleton]
    simp [fileBytes]
  · intro h
    exact absurd h.length_eq (by decide)

end Compilation

end PatternFinder
