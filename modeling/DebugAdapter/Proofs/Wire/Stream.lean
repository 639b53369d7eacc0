import DebugAdapter.Wire.Frame

/-!
# Streams in pieces

The bytes of a stream arrive in pieces of any size, and frames are read as soon as they are complete.
What has been decided from a piece is not changed by what arrives later, so it does not matter how
the stream is cut: `readAll_append` reads the first piece and then the rest.
-/

namespace DebugAdapter.Wire

/-- What is known of a frame when more bytes stand behind those that were looked at. -/
def Arrival.before (behind : List UInt8) : Arrival → Arrival
  | .frame body rest => .frame body (rest ++ behind)
  | a => a

/-- The bytes at hand tell what the next frame is. -/
def Arrival.isDecided : Arrival → Bool
  | .pending _ => false
  | _ => true

theorem readBody_append {h : Header} {a : List UInt8} (ha : (readBody false h a).isDecided = true)
    (ended : Bool) (b : List UInt8) :
    readBody ended h (a ++ b) = (readBody false h a).before b := by
  unfold readBody at ha ⊢
  split
  · rfl
  · rename_i n hn
    simp only [hn] at ha
    split
    · rfl
    · rename_i hsize
      rw [if_neg hsize] at ha
      by_cases hshort : a.length < n
      · rw [if_pos hshort] at ha
        contradiction
      · have hlong : ¬(a ++ b).length < n := by
          rw [List.length_append]
          omega
        rw [if_neg hlong, if_neg hshort, List.take_append_of_le_length (by omega),
          List.drop_append_of_le_length (by omega)]
        rfl

theorem readFrom_append {h : Header} {line a : List UInt8}
    (ha : (readFrom false h line a).isDecided = true) (ended : Bool) (b : List UInt8) :
    readFrom ended h line (a ++ b) = (readFrom false h line a).before b := by
  induction a generalizing h line with
  | nil => contradiction
  | cons x a ih =>
    rw [List.cons_append, readFrom, readFrom]
    rw [readFrom] at ha
    by_cases hx : x = 10
    · simp only [if_pos hx] at ha ⊢
      cases hline : h.readLine (x :: line).reverse with
      | error e => rfl
      | ok next =>
        obtain ⟨last, next⟩ := next
        simp only [hline] at ha
        cases last with
        | true => exact readBody_append ha ended b
        | false => exact ih ha
    · simp only [if_neg hx] at ha ⊢
      exact ih ha

theorem readFrame_append {a : List UInt8} (ha : (readFrame false a).isDecided = true)
    (ended : Bool) (b : List UInt8) : readFrame ended (a ++ b) = (readFrame false a).before b :=
  readFrom_append ha ended b

theorem length_readBody {ended : Bool} {h : Header} {bytes body rest : List UInt8}
    (hframe : readBody ended h bytes = .frame body rest) : rest.length ≤ bytes.length := by
  unfold readBody at hframe
  split at hframe
  · contradiction
  · split at hframe
    · contradiction
    · split at hframe
      · split at hframe <;> contradiction
      · cases hframe
        rw [List.length_drop]
        omega

/-- A frame takes bytes, those of its unfinished line included. -/
theorem length_readFrom {ended : Bool} {h : Header} {line bytes body rest : List UInt8}
    (hframe : readFrom ended h line bytes = .frame body rest) :
    rest.length < line.length + bytes.length := by
  induction bytes generalizing h line with
  | nil =>
    unfold readFrom at hframe
    split at hframe
    · contradiction
    · split at hframe
      · contradiction
      · rename_i hline
        have hpos : 0 < line.length := by
          rw [List.length_pos_iff]
          rintro rfl
          contradiction
        split at hframe
        · contradiction
        · have hrest := length_readBody hframe
          rw [List.length_nil] at hrest
          omega
        · contradiction
  | cons x bytes ih =>
    rw [List.length_cons]
    unfold readFrom at hframe
    split at hframe
    · split at hframe
      · contradiction
      · have hrest := length_readBody hframe
        omega
      · have hrest := ih hframe
        rw [List.length_nil] at hrest
        omega
    · have hrest := ih hframe
      rw [List.length_cons] at hrest
      omega

theorem length_readFrame {ended : Bool} {bytes body rest : List UInt8}
    (hframe : readFrame ended bytes = .frame body rest) : rest.length < bytes.length := by
  have hrest := length_readFrom hframe
  rw [List.length_nil] at hrest
  omega

theorem isDecided_readFrame (bytes : List UInt8) : (readFrame true bytes).isDecided = true := by
  unfold readFrame
  generalize Header.start = h, ([] : List UInt8) = line
  have hbody : ∀ h bytes, (readBody true h bytes).isDecided = true := by
    intro h bytes
    unfold readBody
    split
    · rfl
    · split
      · rfl
      · split <;> rfl
  induction bytes generalizing h line with
  | nil =>
    unfold readFrom
    split
    · contradiction
    · split
      · rfl
      · split
        · rfl
        · exact hbody _ _
        · rfl
  | cons x bytes ih =>
    unfold readFrom
    split
    · split
      · rfl
      · exact hbody _ _
      · exact ih _ _
    · exact ih _ _

theorem readFrame_ne_closed (bytes : List UInt8) : readFrame false bytes ≠ .closed := by
  unfold readFrame
  generalize Header.start = h, ([] : List UInt8) = line
  induction bytes generalizing h line with
  | nil => exact nofun
  | cons x bytes ih =>
    unfold readFrom
    split
    · split
      · exact nofun
      · unfold readBody
        split
        · exact nofun
        · split
          · exact nofun
          · split <;> exact nofun
      · exact ih _ _
    · exact ih _ _

/-! ## Frame after frame -/

theorem readFrames_fuel (ended : Bool) {bytes : List UInt8} {n m : Nat} (hn : bytes.length < n)
    (hm : bytes.length < m) : readFrames ended n bytes = readFrames ended m bytes := by
  induction n generalizing bytes m with
  | zero => contradiction
  | succ n ih =>
    obtain ⟨m, rfl⟩ := Nat.exists_eq_add_one_of_ne_zero (Nat.ne_zero_of_lt hm)
    rw [readFrames, readFrames]
    cases hframe : readFrame ended bytes with
    | pending | closed | failed => rfl
    | frame body rest =>
      have hrest := length_readFrame hframe
      simp only [@ih rest m (by omega) (by omega)]

theorem readAll_eq (ended : Bool) (bytes : List UInt8) :
    readAll ended bytes =
      match readFrame ended bytes with
      | .pending _ => ([], bytes, none)
      | .closed => ([], [], some .closed)
      | .failed e => ([], bytes, some (.failed e))
      | .frame body rest =>
        (.ofBody body :: (readAll ended rest).1, (readAll ended rest).2) := by
  rw [readAll, readFrames]
  cases hframe : readFrame ended bytes with
  | pending | closed | failed => rfl
  | frame body rest =>
    have hrest := length_readFrame hframe
    simp only [readAll, readFrames_fuel ended (m := rest.length + 1) hrest (Nat.lt_succ_self _)]

/-- What holds of bytes whenever it holds of those behind their first frame. -/
theorem frames_induction {P : List UInt8 → Prop} (ended : Bool)
    (step : ∀ bytes, (∀ body rest, readFrame ended bytes = .frame body rest → P rest) → P bytes)
    (bytes : List UInt8) : P bytes := by
  induction hlength : bytes.length using Nat.strongRecOn generalizing bytes with
  | _ n ih =>
    apply step
    intro body rest hframe
    exact ih rest.length (hlength ▸ length_readFrame hframe) rest rfl

/-- As long as the stream goes on, a piece is read first and what it leaves is read with the rest. -/
theorem readAll_append (ended : Bool) {a : List UInt8} (b : List UInt8)
    (ha : (readAll false a).2.2 = none) :
    readAll ended (a ++ b) =
      ((readAll false a).1 ++ (readAll ended ((readAll false a).2.1 ++ b)).1,
        (readAll ended ((readAll false a).2.1 ++ b)).2) := by
  induction a using frames_induction false with
  | step a ih =>
    have hread := readAll_eq false a
    cases hframe : readFrame false a with
    | pending =>
      simp only [hframe] at hread
      rw [hread]
      rfl
    | closed => exact absurd hframe (readFrame_ne_closed a)
    | failed =>
      simp only [hframe] at hread
      rw [hread] at ha
      contradiction
    | frame body rest =>
      simp only [hframe] at hread
      rw [hread] at ha ⊢
      -- The frame is complete, so that it is read from the longer stream too.
      have hlonger := readFrame_append (a := a) (by rw [hframe]; rfl) ended b
      rw [hframe] at hlonger
      rw [readAll_eq, hlonger]
      simp only [Arrival.before, ih body rest hframe ha, List.cons_append]

theorem readAll_append_of_failed (ended : Bool) {a : List UInt8} (b : List UInt8) {e : StreamEnd}
    (ha : (readAll false a).2.2 = some e) :
    (readAll ended (a ++ b)).1 = (readAll false a).1 ∧ (readAll ended (a ++ b)).2.2 = some e := by
  induction a using frames_induction false with
  | step a ih =>
    have hread := readAll_eq false a
    have happend (hdecided : (readFrame false a).isDecided = true) :=
      readFrame_append hdecided ended b
    cases hframe : readFrame false a with
    | pending =>
      simp only [hframe] at hread
      rw [hread] at ha
      contradiction
    | closed => exact absurd hframe (readFrame_ne_closed a)
    | failed =>
      rw [hframe] at happend
      simp only [hframe] at hread
      rw [hread] at ha ⊢
      rw [readAll_eq, happend rfl]
      exact ⟨rfl, ha⟩
    | frame body rest =>
      rw [hframe] at happend
      simp only [hframe] at hread
      rw [hread] at ha ⊢
      rw [readAll_eq, happend rfl]
      obtain ⟨hframes, hend⟩ := ih body rest hframe ha
      exact ⟨congrArg (_ :: ·) hframes, hend⟩

theorem readAll_ended (bytes : List UInt8) : (readAll true bytes).2.2 ≠ none := by
  induction bytes using frames_induction true with
  | step bytes ih =>
    have hdecided := isDecided_readFrame bytes
    rw [readAll_eq]
    cases hframe : readFrame true bytes with
    | pending =>
      rw [hframe] at hdecided
      contradiction
    | closed | failed => exact nofun
    | frame body rest => exact ih body rest hframe

end DebugAdapter.Wire
