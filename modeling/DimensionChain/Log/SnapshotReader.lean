import DimensionChain.Base.Bytes
import DimensionChain.Chain.Types

/-!
# Reading snapshot files

`istream_snapshot_reader` finds the sections of a binary snapshot by their sizes: a size is read, and
the stream moves on by it as a signed offset, until the end marker is read. The loops of the source
have no bound; here each takes the number of its rounds, and ends when some number is enough.
-/

namespace DimensionChain.Snapshot

open List Bytes Option Relation

def magicNumber : Nat := 0x30510550

def currentSnapshotVersion : Nat := 1

def headerSize : Nat := 8

def endMarker : Nat := 2 ^ 64 - 1

def streamoff (size : Nat) : Int :=
  if size < 2 ^ 63 then size else size - 2 ^ 64

structure IStream where
  pos : Nat
  fail : Bool
  deriving DecidableEq

namespace IStream
variable (file : Bytes) (s : IStream)

/-- A stream that has failed does not move. A sum past the largest offset wraps to a negative one,
which no file has. -/
def seekg (target : Int) : IStream :=
  if s.fail = true ∨ target < 0 ∨ 2 ^ 63 ≤ target then ⟨s.pos, true⟩ else ⟨target.toNat, false⟩

def tellg : Int :=
  if s.fail then -1 else s.pos

/-- A read into a variable that is zero. At the end of the file the bytes there are stay in it. -/
def read (width : Nat) : IStream × Nat :=
  if s.fail then (s, 0)
  else
    match file.readWord s.pos width with
    | some n => (⟨s.pos + width, false⟩, n)
    | none => (⟨file.length, true⟩, Bytes.toWord (file.drop s.pos))

def get : IStream × Int :=
  if s.fail then (s, -1)
  else
    match file[s.pos]? with
    | some c => (⟨s.pos + 1, false⟩, c.toNat)
    | none => (⟨s.pos, true⟩, -1)

end IStream

section Validate
variable (file : Bytes)

/-- While `validate` runs, a stream that fails throws. -/
def throwOnFail (s : IStream) : Result Unit :=
  eosAssert (s.fail = false) .snapshot
    "Binary snapshot validation threw IO exception ($\x7bwhat\x7d)"

def validateSection (s : IStream) : Result (Bool × IStream) := do
  let (s, sectionSize) := s.read file 8
  throwOnFail s
  if sectionSize = endMarker then
    return (false, s)
  let s := s.seekg (s.tellg + streamoff sectionSize)
  throwOnFail s
  return (true, s)

def validateHeader (s : IStream) : Result IStream := do
  let (s, totem) := s.read file 4
  throwOnFail s
  eosAssert (totem = magicNumber) .snapshot "Binary snapshot has unexpected magic number!"
  let (s, version) := s.read file 4
  throwOnFail s
  eosAssert (version = currentSnapshotVersion) .snapshot
    "Binary snapshot is an unsuppored version.  Expected : $\x7bexpected\x7d, Got: $\x7bactual\x7d"
  return s

def validateLoop : Nat → IStream → Option (Result Unit)
  | 0, _ => none
  | rounds + 1, s =>
    match validateSection file s with
    | .error e => some (.error e)
    | .ok (false, _) => some (.ok ())
    | .ok (true, s) => validateLoop rounds s

def validate (rounds : Nat) : Option (Result Unit) :=
  match validateHeader file ⟨0, false⟩ with
  | .error e => some (.error e)
  | .ok s => validateLoop file rounds s

end Validate

section Sections
variable (file : Bytes) (name : List Int8)

/-- The comparison of the name, whose characters are signed, with what `get` returns. -/
def matchName : List Int8 → IStream → Bool × IStream
  | [], s => (true, s)
  | c :: cs, s =>
    let (s, got) := s.get file
    if got ≠ c.toInt then (false, s) else matchName cs s

inductive Round where
  | absent (s : IStream)
  | found (rowCount : Nat) (s : IStream)
  | onward (nextSectionPos : Int) (s : IStream)

def sectionRound (nextSectionPos : Int) (s : IStream) : Round :=
  let (s, sectionSize) := (s.seekg nextSectionPos).read file 8
  if sectionSize = endMarker then .absent s
  else
    let nextSectionPos := s.tellg + streamoff sectionSize
    let (s, rowCount) := s.read file 8
    let (isMatch, s) := matchName file name s
    if isMatch then
      let (s, c) := s.get file
      if c = 0 then .found rowCount s else .onward nextSectionPos s
    else .onward nextSectionPos s

def findSection : Nat → Int → IStream → Option (Option Nat × IStream)
  | 0, _, _ => none
  | rounds + 1, nextSectionPos, s =>
    match sectionRound file name nextSectionPos s with
    | .absent s => some (none, s)
    | .found rowCount s => some (some rowCount, s)
    | .onward nextSectionPos s => findSection rounds nextSectionPos s

def hasSection (rounds : Nat) (s : IStream) : Option (Bool × IStream) :=
  (findSection file name rounds headerSize s).map fun r => (r.1.isSome, r.2.seekg s.tellg)

def setSection (rounds : Nat) (s : IStream) : Option (Result (Nat × IStream)) :=
  (findSection file name rounds headerSize s).map fun r =>
    match r with
    | (some rowCount, s) => .ok (rowCount, s)
    | (none, _) => .error ⟨.snapshot, "Binary snapshot has no section named $\x7bn\x7d"⟩

end Sections

/-- The section at `pos` leads to `pos'`. -/
def Next (file : Bytes) (pos pos' : Nat) : Prop :=
  ∃ size, file.readWord pos 8 = some size ∧ size ≠ endMarker ∧
    ((pos + 8 : Nat) : Int) + streamoff size = pos' ∧ pos' < 2 ^ 63

def Met (file : Bytes) (pos : Nat) : Prop :=
  ReflTransGen (Next file) headerSize pos

/-- A byte from `pos` on that no character of a name is equal to. -/
def HighByteFrom (file : Bytes) (pos : Nat) : Prop :=
  ∃ k b, pos ≤ k ∧ file[k]? = some b ∧ 128 ≤ b.toNat

variable {file : Bytes} {pos pos' : Nat} {s : IStream}

lemma le_of_readWord {w : Nat} (h : file.readWord pos 8 = some w) : pos + 8 ≤ file.length := by
  obtain ⟨bytes, hread, -⟩ := map_eq_some_iff.mp h
  unfold readAt at hread
  split at hread
  · assumption
  · cases hread

lemma seekg_ok {t : Nat} (hs : s.fail = false) (ht : t < 2 ^ 63) : s.seekg t = ⟨t, false⟩ := by
  unfold IStream.seekg
  rw [if_neg (by simp [hs]; omega)]
  rfl

lemma read_some {n : Nat} (h : file.readWord pos 8 = some n) :
    (⟨pos, false⟩ : IStream).read file 8 = (⟨pos + 8, false⟩, n) := by
  simp [IStream.read, h]

lemma Next.lt (h : Next file pos pos') : pos < file.length := by
  obtain ⟨size, hread, -⟩ := h
  have := le_of_readWord hread
  omega

lemma Met.lt (h : Met file pos) : pos < 2 ^ 63 := by
  cases h with
  | refl => decide
  | tail _ hnext => exact hnext.choose_spec.2.2.2

lemma validateSection_next (h : Next file pos pos') :
    validateSection file ⟨pos, false⟩ = .ok (true, ⟨pos', false⟩) := by
  obtain ⟨size, hread, hend, htarget, hlt⟩ := h
  unfold validateSection
  rw [read_some hread]
  simp only [if_neg hend, IStream.tellg, if_neg Bool.false_ne_true, htarget]
  rw [seekg_ok rfl hlt]
  rfl

lemma validateSection_cases (file : Bytes) (pos : Nat) :
    (∃ e, validateSection file ⟨pos, false⟩ = .error e) ∨
    (file.readWord pos 8 = some endMarker ∧
      validateSection file ⟨pos, false⟩ = .ok (false, ⟨pos + 8, false⟩)) ∨
    ∃ pos', Next file pos pos' := by
  unfold validateSection
  cases hread : file.readWord pos 8 with
  | none => exact .inl ⟨_, by simp [IStream.read, hread, throwOnFail, eosAssert]; rfl⟩
  | some size =>
    rw [read_some hread]
    by_cases hend : size = endMarker
    · exact .inr (.inl ⟨congrArg some hend, if_pos hend⟩)
    by_cases htarget : ((pos + 8 : Nat) : Int) + streamoff size < 0 ∨
        2 ^ 63 ≤ ((pos + 8 : Nat) : Int) + streamoff size
    · have hseek : (⟨pos + 8, false⟩ : IStream).seekg (((pos + 8 : Nat) : Int) + streamoff size) =
          ⟨pos + 8, true⟩ := if_pos (.inr htarget)
      simp only [if_neg hend, IStream.tellg, if_neg Bool.false_ne_true, hseek]
      exact .inl ⟨_, rfl⟩
    · refine .inr (.inr ⟨(((pos + 8 : Nat) : Int) + streamoff size).toNat, size, hread, hend, ?_, ?_⟩)
      · omega
      · omega

lemma validateLoop_next (h : Next file pos pos') (rounds : Nat) :
    validateLoop file (rounds + 1) ⟨pos, false⟩ = validateLoop file rounds ⟨pos', false⟩ := by
  rw [validateLoop, validateSection_next h]

/-- Only finitely many positions lie inside the file. -/
lemma later_wellFounded (hacyclic : ∀ pos, Met file pos → ¬TransGen (Next file) pos pos) :
    WellFounded fun q p : Fin file.length => Met file p ∧ TransGen (Next file) p q := by
  have : IsTrans (Fin file.length) fun q p => Met file p ∧ TransGen (Next file) p q :=
    ⟨fun _ _ _ h h' => ⟨h'.1, h'.2.trans h.2⟩⟩
  have : Std.Irrefl fun q p : Fin file.length => Met file p ∧ TransGen (Next file) p q :=
    ⟨fun p h => hacyclic p h.1 h.2⟩
  exact Finite.wellFounded_of_trans_of_irrefl _

lemma validateLoop_ends (hacyclic : ∀ pos, Met file pos → ¬TransGen (Next file) pos pos)
    (hmet : Met file pos) : ∃ rounds r, validateLoop file rounds ⟨pos, false⟩ = some r := by
  have hlast : ∀ p, (∀ p', ¬Next file p p') →
      ∃ rounds r, validateLoop file rounds ⟨p, false⟩ = some r := by
    intro p hnone
    rcases validateSection_cases file p with ⟨e, he⟩ | ⟨-, hok⟩ | ⟨p', hnext⟩
    · exact ⟨1, .error e, by rw [validateLoop, he]⟩
    · exact ⟨1, .ok (), by rw [validateLoop, hok]⟩
    · exact absurd hnext (hnone p')
  have hinside : ∀ p : Fin file.length, Met file p →
      ∃ rounds r, validateLoop file rounds ⟨p, false⟩ = some r := by
    intro p
    induction p using (later_wellFounded hacyclic).induction with
    | _ p ih =>
      intro hp
      by_cases hnext : ∃ p', Next file p p'
      case neg => exact hlast p (not_exists.mp hnext)
      obtain ⟨p', hnext⟩ := hnext
      have hp' : Met file p' := hp.tail hnext
      obtain ⟨rounds, r, h⟩ : ∃ rounds r, validateLoop file rounds ⟨p', false⟩ = some r := by
        by_cases hlt : p' < file.length
        · exact ih ⟨p', hlt⟩ ⟨hp, .single hnext⟩ hp'
        · exact hlast p' fun _ h => hlt h.lt
      exact ⟨rounds + 1, r, by rw [validateLoop_next hnext, h]⟩
  by_cases hlt : pos < file.length
  · exact hinside ⟨pos, hlt⟩ hmet
  · exact hlast pos fun _ h => hlt h.lt

lemma validateLoop_cycles (h : TransGen (Next file) pos pos) (rounds : Nat) :
    validateLoop file rounds ⟨pos, false⟩ = none := by
  induction rounds generalizing pos with
  | zero => rfl
  | succ rounds ih =>
    obtain ⟨q, hq, hback⟩ := TransGen.head'_iff.mp h
    rw [validateLoop_next hq]
    exact ih (.tail' hback hq)

lemma validateLoop_none_of_later (hpath : ReflTransGen (Next file) pos pos')
    (hnone : ∀ rounds, validateLoop file rounds ⟨pos', false⟩ = none) (rounds : Nat) :
    validateLoop file rounds ⟨pos, false⟩ = none := by
  induction hpath using ReflTransGen.head_induction_on generalizing rounds with
  | refl => exact hnone rounds
  | head hnext _ ih =>
    cases rounds with
    | zero => rfl
    | succ rounds => rw [validateLoop_next hnext, ih]

lemma validateLoop_ends_iff : (∃ rounds r, validateLoop file rounds ⟨headerSize, false⟩ = some r) ↔
    ∀ pos, Met file pos → ¬TransGen (Next file) pos pos := by
  refine ⟨?_, fun hacyclic => validateLoop_ends hacyclic .refl⟩
  rintro ⟨rounds, r, h⟩ pos hmet hcycle
  rw [validateLoop_none_of_later hmet (validateLoop_cycles hcycle)] at h
  cases h

section Search
variable {name : List Int8}

lemma get_ok (h : pos < file.length) : ∃ c, file[pos]? = some c ∧
    (⟨pos, false⟩ : IStream).get file = (⟨pos + 1, false⟩, (c.toNat : Int)) := by
  simp [IStream.get, getElem?_eq_getElem h]

lemma get_failed (hs : s.fail = true) : s.get file = (s, -1) := by
  simp [IStream.get, hs]

/-- A name is never compared beyond a byte that its characters cannot be equal to. -/
lemma matchName_ok (hhigh : HighByteFrom file pos) (name : List Int8) :
    ∃ pos', (matchName file name ⟨pos, false⟩).2 = ⟨pos', false⟩ ∧
      ((matchName file name ⟨pos, false⟩).1 = true → HighByteFrom file pos') := by
  induction name generalizing pos with
  | nil => exact ⟨pos, rfl, fun _ => hhigh⟩
  | cons c cs ih =>
    obtain ⟨k, b, hk, hb, hbyte⟩ := hhigh
    have hlen : k < file.length := (List.getElem?_eq_some_iff.mp hb).1
    obtain ⟨got, hgot, hget⟩ := get_ok (show pos < file.length by omega)
    unfold matchName
    rw [hget]
    dsimp only
    split
    · exact ⟨pos + 1, rfl, fun h => by cases h⟩
    case isFalse heq =>
      have hne : pos ≠ k := by
        rintro rfl
        rw [hb] at hgot
        cases hgot
        have hc : c.toInt ≤ 127 := c.toInt_le
        omega
      exact ih ⟨k, b, by omega, hb, hbyte⟩

lemma matchName_failed (name : List Int8) (hs : s.fail = true) : (matchName file name s).2 = s := by
  induction name with
  | nil => rfl
  | cons c cs ih =>
    unfold matchName
    rw [get_failed hs]
    dsimp only
    split
    · rfl
    · exact ih

lemma fail_of_get (h : (s.get file).2 = -1) : (s.get file).1.fail = true := by
  unfold IStream.get at h ⊢
  split
  case isTrue hs => exact hs
  case isFalse hs =>
    rw [if_neg hs] at h
    cases hbyte : file[s.pos]? with
    | none => rfl
    | some c =>
      simp only [hbyte] at h
      omega

/-- The character -1, which `get` returns at the end, is matched by a failed stream only. -/
lemma fail_of_matchName (hname : -1 ∈ name) (h : (matchName file name s).1 = true) :
    (matchName file name s).2.fail = true := by
  induction name generalizing s with
  | nil => cases hname
  | cons c cs ih =>
    unfold matchName at h ⊢
    dsimp only at h ⊢
    split at h
    · cases h
    case isFalse heq =>
      rw [if_neg heq]
      rcases mem_cons.mp hname with rfl | hmem
      · have hfail := fail_of_get (not_not.mp heq)
        rw [matchName_failed cs hfail]
        exact hfail
      · exact ih hmem h

/-- The bytes from `pos` to the end as a name, and the character for the end. -/
def nameFrom (file : Bytes) (pos : Nat) : List Int8 :=
  (file.drop pos).map UInt8.toInt8 ++ [-1]

lemma matchName_nameFrom (hlow : ¬HighByteFrom file pos) :
    (matchName file (nameFrom file pos) ⟨pos, false⟩).2.fail = true := by
  unfold nameFrom
  induction hrest : file.drop pos generalizing pos with
  | nil =>
    have hnone : file[pos]? = none := getElem?_eq_none (drop_eq_nil_iff.mp hrest)
    simp [matchName, IStream.get, hnone]
  | cons b rest ih =>
    have hbyte : file[pos]? = some b := by
      rw [← Nat.add_zero pos, ← getElem?_drop, hrest]
      rfl
    have hb : b.toNat < 128 := by
      by_contra hb
      exact hlow ⟨pos, b, Nat.le_refl pos, hbyte, Nat.le_of_not_lt hb⟩
    have hchar : b.toInt8.toInt = b.toNat :=
      BitVec.toInt_eq_toNat_of_lt (show 2 * b.toNat < 2 ^ 8 by omega)
    have hdrop : file.drop (pos + 1) = rest := by
      rw [← tail_drop, hrest]
      rfl
    have hnext : ¬HighByteFrom file (pos + 1) := by
      rintro ⟨k, c, hk, hc⟩
      exact hlow ⟨k, c, by omega, hc⟩
    have htail := ih hnext hdrop
    simp only [map_cons, cons_append, matchName, IStream.get, hbyte, hchar]
    simpa using htail

/-- What a round does with a section that is not the end marker. -/
lemma sectionRound_eq {next : Int} {t : IStream} {size : Nat}
    (hread : (s.seekg next).read file 8 = (t, size)) (hend : size ≠ endMarker) :
    sectionRound file name next s =
      if (matchName file name (t.read file 8).1).1 = true ∧
          ((matchName file name (t.read file 8).1).2.get file).2 = 0 then
        .found (t.read file 8).2 ((matchName file name (t.read file 8).1).2.get file).1
      else .onward (t.tellg + streamoff size)
        (if (matchName file name (t.read file 8).1).1 = true then
          ((matchName file name (t.read file 8).1).2.get file).1
        else (matchName file name (t.read file 8).1).2) := by
  unfold sectionRound
  rw [hread]
  simp only [if_neg hend]
  generalize matchName file name (t.read file 8).1 = m
  obtain ⟨isMatch, u⟩ := m
  cases isMatch with
  | false => simp
  | true => simp

lemma sectionRound_onward {next : Int} {t : IStream} {size : Nat}
    (hread : (s.seekg next).read file 8 = (t, size)) (hend : size ≠ endMarker)
    (hfail : (matchName file name (t.read file 8).1).2.fail = true) :
    sectionRound file name next s =
      .onward (t.tellg + streamoff size) (matchName file name (t.read file 8).1).2 := by
  rw [sectionRound_eq hread hend, get_failed hfail, if_neg (by simp), ite_self]

lemma findSection_failed (rounds : Nat) (next : Int) (hs : s.fail = true) :
    findSection file name rounds next s = none := by
  induction rounds generalizing next s with
  | zero => rfl
  | succ rounds ih =>
    have hread : (s.seekg next).read file 8 = (⟨s.pos, true⟩, 0) := by
      rw [show s.seekg next = ⟨s.pos, true⟩ from if_pos (.inl hs)]
      rfl
    have hfail : (matchName file name ((⟨s.pos, true⟩ : IStream).read file 8).1).2.fail = true := by
      rw [matchName_failed name rfl]
      rfl
    rw [findSection, sectionRound_onward hread (by decide) hfail]
    exact ih _ hfail

lemma Next.read (h : Next file pos pos') (hs : s.fail = false) (hpos : pos < 2 ^ 63) :
    ∃ size, size ≠ endMarker ∧ (s.seekg pos).read file 8 = (⟨pos + 8, false⟩, size) ∧
      (⟨pos + 8, false⟩ : IStream).tellg + streamoff size = pos' := by
  obtain ⟨size, hread, hend, htarget, -⟩ := h
  rw [seekg_ok hs hpos]
  exact ⟨size, hend, read_some hread, htarget⟩

lemma findSection_ends (hhigh : ∀ pos pos', Met file pos → Next file pos pos' →
      HighByteFrom file (pos + 16)) (rounds : Nat) (hmet : Met file pos) (hs : s.fail = false)
    (h : validateLoop file rounds ⟨pos, false⟩ = some (.ok ())) :
    ∃ r, findSection file name rounds pos s = some r := by
  induction rounds generalizing pos s with
  | zero => cases h
  | succ rounds ih =>
    rcases validateSection_cases file pos with ⟨e, he⟩ | ⟨hread, -⟩ | ⟨pos', hnext⟩
    · rw [validateLoop, he] at h
      cases h
    · unfold findSection sectionRound
      rw [seekg_ok hs hmet.lt, read_some hread]
      exact ⟨_, rfl⟩
    rw [validateLoop_next hnext] at h
    have honward : ∀ t : IStream, t.fail = false →
        ∃ r, findSection file name rounds pos' t = some r :=
      fun t ht => ih (hmet.tail hnext) ht h
    obtain ⟨size, hend, hread, htarget⟩ := hnext.read hs hmet.lt
    obtain ⟨k, b, hk, hb, hbyte⟩ := hhigh pos pos' hmet hnext
    have hlen : k < file.length := (List.getElem?_eq_some_iff.mp hb).1
    obtain ⟨rows, hrows⟩ : ∃ rows, file.readWord (pos + 8) 8 = some rows := by
      unfold readWord readAt
      rw [if_pos (by omega)]
      exact ⟨_, rfl⟩
    obtain ⟨last, hstream, hlast⟩ := matchName_ok ⟨k, b, hk, hb, hbyte⟩ name
    rw [findSection, sectionRound_eq hread hend, htarget, read_some hrows]
    dsimp only
    rw [hstream]
    by_cases hfound : (matchName file name ⟨pos + 16, false⟩).1 = true ∧
        ((⟨last, false⟩ : IStream).get file).2 = 0
    · rw [if_pos hfound]
      exact ⟨_, rfl⟩
    rw [if_neg hfound]
    apply honward
    split
    case isTrue hmatch =>
      obtain ⟨k', b', hk', hb', -⟩ := hlast hmatch
      have hlen' : k' < file.length := (List.getElem?_eq_some_iff.mp hb').1
      obtain ⟨c, -, hget⟩ := get_ok (show last < file.length by omega)
      rw [hget]
    case isFalse => rfl

/-- A search with this name does not pass the section: the name is matched to the end of the file,
there or at an earlier section, and from then on nothing is read. -/
lemma findSection_hangs {p p' : Nat} (hp : Next file p p') (hlow : ¬HighByteFrom file (p + 16))
    (hpath : ReflTransGen (Next file) pos p) (hmet : Met file pos) (rounds : Nat)
    (hs : s.fail = false) : findSection file (nameFrom file (p + 16)) rounds pos s = none := by
  induction hpath using ReflTransGen.head_induction_on generalizing rounds s with
  | refl =>
    cases rounds with
    | zero => rfl
    | succ rounds =>
      obtain ⟨size, hend, hread, -⟩ := hp.read hs hmet.lt
      have hfail : (matchName file (nameFrom file (p + 16))
          ((⟨p + 8, false⟩ : IStream).read file 8).1).2.fail = true := by
        cases hrows : file.readWord (p + 8) 8 with
        | some rows =>
          rw [read_some hrows]
          exact matchName_nameFrom hlow
        | none =>
          have hfailed : ((⟨p + 8, false⟩ : IStream).read file 8).1.fail = true := by
            simp [IStream.read, hrows]
          rw [matchName_failed _ hfailed]
          exact hfailed
      rw [findSection, sectionRound_onward hread hend hfail]
      exact findSection_failed rounds _ hfail
  | @head q q' hnext _ ih =>
    cases rounds with
    | zero => rfl
    | succ rounds =>
      obtain ⟨size, hend, hread, htarget⟩ := hnext.read hs hmet.lt
      generalize hmatch : matchName file (nameFrom file (p + 16))
        ((⟨q + 8, false⟩ : IStream).read file 8).1 = m
      by_cases hfail : m.2.fail = true
      · rw [← hmatch] at hfail
        rw [findSection, sectionRound_onward hread hend hfail]
        exact findSection_failed rounds _ hfail
      have hmismatch : m.1 = false := by
        by_contra htrue
        rw [Bool.not_eq_false, ← hmatch] at htrue
        rw [← hmatch] at hfail
        exact hfail (fail_of_matchName (by simp [nameFrom]) htrue)
      rw [findSection, sectionRound_eq hread hend, hmatch, hmismatch, htarget]
      exact ih (hmet.tail hnext) rounds (Bool.eq_false_iff.mpr hfail)

end Search

def HasHeader (file : Bytes) : Prop :=
  file.readWord 0 4 = some magicNumber ∧ file.readWord 4 4 = some currentSnapshotVersion

lemma validateHeader_cases (file : Bytes) :
    (HasHeader file ∧ validateHeader file ⟨0, false⟩ = .ok ⟨headerSize, false⟩) ∨
      ¬HasHeader file ∧ ∃ e, validateHeader file ⟨0, false⟩ = .error e := by
  unfold HasHeader validateHeader
  cases htotem : file.readWord 0 4 with
  | none => exact .inr ⟨by simp, _, by simp [IStream.read, htotem, throwOnFail, eosAssert]; rfl⟩
  | some totem =>
    simp only [IStream.read, htotem, Bool.false_eq_true, if_false]
    by_cases hmagic : totem = magicNumber
    case neg => exact .inr ⟨by simp [hmagic], _, by simp [throwOnFail, eosAssert, hmagic]; rfl⟩
    cases hversion : file.readWord 4 4 with
    | none => exact .inr ⟨by simp, _, by simp [throwOnFail, eosAssert, hmagic]; rfl⟩
    | some version =>
      by_cases hcurrent : version = currentSnapshotVersion
      · refine .inl ⟨by simp [hmagic, hcurrent], ?_⟩
        simp [throwOnFail, eosAssert, hmagic, hcurrent]
        rfl
      · exact .inr ⟨by simp [hcurrent], _, by simp [throwOnFail, eosAssert, hmagic, hcurrent]; rfl⟩

/-- `validate` ends if and only if the sizes behind a right header lead into no cycle. After it has
returned, `has_section` and `set_section` end for every name if and only if each section has, behind
its size and its row count, a byte in the file that no character of a name is equal to. -/
theorem reading_ends (file : Bytes) :
    ((∃ rounds r, validate file rounds = some r) ↔
      (HasHeader file → ∀ pos, Met file pos → ¬TransGen (Next file) pos pos)) ∧
    ((∃ rounds, validate file rounds = some (.ok ())) →
      ((∀ name s, s.fail = false → (∃ rounds r, hasSection file name rounds s = some r) ∧
          ∃ rounds r, setSection file name rounds s = some r) ↔
        ∀ pos pos', Met file pos → Next file pos pos' → HighByteFrom file (pos + 16))) := by
  unfold validate
  rcases validateHeader_cases file with ⟨hheader, hok⟩ | ⟨hheader, e, he⟩
  case inr =>
    rw [he]
    exact ⟨⟨fun _ h => absurd h hheader, fun _ => ⟨0, _, rfl⟩⟩, fun ⟨_, h⟩ => by cases h⟩
  rw [hok]
  refine ⟨?_, fun ⟨rounds, h⟩ => ⟨fun hends p p' hp hnext => ?_, fun hhigh name s hs => ?_⟩⟩
  · exact validateLoop_ends_iff.trans ⟨fun h _ => h, fun h => h hheader⟩
  · by_contra hlow
    obtain ⟨⟨n, r, hr⟩, -⟩ := hends (nameFrom file (p + 16)) ⟨0, false⟩ rfl
    unfold hasSection at hr
    rw [findSection_hangs hnext hlow hp .refl n rfl] at hr
    cases hr
  obtain ⟨r, hr⟩ : ∃ r, findSection file name rounds headerSize s = some r :=
    findSection_ends hhigh rounds .refl hs h
  unfold hasSection setSection
  exact ⟨⟨rounds, _, by rw [hr]; rfl⟩, ⟨rounds, _, by rw [hr]; rfl⟩⟩

def oneSection (size : Nat) (rest : Bytes) : Bytes :=
  Bytes.ofWord 4 magicNumber ++ Bytes.ofWord 4 currentSnapshotVersion ++ Bytes.ofWord 8 size ++ rest

def rowOfA : Bytes :=
  oneSection 11 (Bytes.ofWord 8 1 ++ [97, 0, 7] ++ Bytes.ofWord 8 endMarker)

lemma next_rowOfA {pos pos' : Nat} (hpos : pos = 8 ∨ pos = 27) (h : Next rowOfA pos pos') :
    pos = 8 ∧ pos' = 27 := by
  obtain ⟨size, hread, hend, htarget, -⟩ := h
  rcases hpos with rfl | rfl
  · cases hread.symm.trans (by decide : rowOfA.readWord 8 8 = some 11)
    change (16 : Int) + 11 = pos' at htarget
    omega
  · exact absurd (some.inj (hread.symm.trans (by decide))) hend

lemma met_rowOfA {pos : Nat} (h : Met rowOfA pos) : pos = 8 ∨ pos = 27 := by
  induction h with
  | refl => exact .inl rfl
  | tail _ hnext ih => exact .inr (next_rowOfA ih hnext).2

/-- The file is read to its end, and a search for any name ends. -/
theorem reading_ends_rowOfA : validate rowOfA 2 = some (.ok ()) ∧ ∀ name,
    (∃ rounds r, hasSection rowOfA name rounds ⟨0, false⟩ = some r) ∧
      ∃ rounds r, setSection rowOfA name rounds ⟨0, false⟩ = some r := by
  refine ⟨rfl, fun name => ((reading_ends rowOfA).2 ⟨2, rfl⟩).mpr ?_ name ⟨0, false⟩ rfl⟩
  intro pos pos' hmet hnext
  obtain ⟨rfl, -⟩ := next_rowOfA (met_rowOfA hmet) hnext
  exact ⟨34, 255, by decide, by decide, by decide⟩

def backward : Bytes :=
  oneSection (2 ^ 64 - 8) []

def hollow : Bytes :=
  oneSection 0 (Bytes.ofWord 8 endMarker)

/-- `validate` does not end on the one file; it accepts the other, on which a search for `a` does
not end: the stream fails behind the end marker, and then nothing is read any more. -/
theorem reading_hangs : (∀ rounds, validate backward rounds = none) ∧
    validate hollow 3 = some (.ok ()) ∧ ∀ rounds, hasSection hollow [97] rounds ⟨0, false⟩ = none ∧
      setSection hollow [97] rounds ⟨0, false⟩ = none := by
  have hloop : ∀ rounds, validateLoop backward rounds ⟨8, false⟩ = none := by
    intro rounds
    induction rounds with
    | zero => rfl
    | succ rounds ih =>
      exact ih
  have hfind : ∀ rounds, findSection hollow [97] rounds headerSize ⟨0, false⟩ = none := by
    intro rounds
    cases rounds with
    | zero => rfl
    | succ rounds => exact findSection_failed (s := ⟨24, true⟩) rounds 16 rfl
  refine ⟨hloop, rfl, ?_⟩
  intro rounds
  unfold hasSection setSection
  rw [hfind]
  exact ⟨rfl, rfl⟩

end DimensionChain.Snapshot
