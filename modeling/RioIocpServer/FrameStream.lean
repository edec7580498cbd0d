import Mathlib.Data.List.Basic
import Mathlib.Data.List.Infix

/-!
# Frames of a byte stream

A sender concatenates frames; a receiver sees a prefix of the concatenation.
The frames that lie inside a prefix are determined by its length, and once some
of them are taken off, the rest are those of the remaining stream.
-/

namespace RioIocpServer.FrameStream

variable {β : Type*}

/-- The frames that lie completely inside the first `n` values of the stream. -/
def completeFrames : List (List β) → ℕ → List (List β)
  | [], _ => []
  | f :: fs, n => if f.length ≤ n then f :: completeFrames fs (n - f.length) else []

@[simp] theorem completeFrames_nil (n : ℕ) : completeFrames ([] : List (List β)) n = [] := rfl

/-- A first frame that is inside the prefix is complete. -/
theorem completeFrames_cons_of_le {f : List β} (fs : List (List β)) {n : ℕ} (h : f.length ≤ n) :
    completeFrames (f :: fs) n = f :: completeFrames fs (n - f.length) := if_pos h

/-- A first frame that is cut leaves nothing complete. -/
theorem completeFrames_cons_of_lt {f : List β} (fs : List (List β)) {n : ℕ} (h : n < f.length) :
    completeFrames (f :: fs) n = [] := if_neg (by omega)

/-- Taking complete frames off the front leaves those of the remaining stream. -/
theorem completeFrames_append {done : List (List β)} (rest : List (List β)) {n : ℕ}
    (h : done.flatten.length ≤ n) : completeFrames (done ++ rest) n =
      done ++ completeFrames rest (n - done.flatten.length) := by
  induction done generalizing n with
  | nil => simp
  | cons f fs ih =>
    rw [List.flatten_cons, List.length_append] at h
    rw [List.cons_append, completeFrames_cons_of_le _ (by omega), ih (by omega),
      List.flatten_cons, List.length_append, Nat.sub_add_eq, List.cons_append]

/-- The complete frames are the first ones. -/
theorem completeFrames_initial (fs : List (List β)) (n : ℕ) : completeFrames fs n <+: fs := by
  induction fs generalizing n with
  | nil => exact List.prefix_rfl
  | cons f fs ih =>
    by_cases h : f.length ≤ n
    · rw [completeFrames_cons_of_le fs h]
      exact (List.prefix_cons_inj f).mpr (ih _)
    · rw [completeFrames_cons_of_lt fs (by omega)]
      exact List.nil_prefix

/-- Nonempty frames sent later are not complete before the earlier bytes have arrived. -/
theorem completeFrames_extend {fs gs : List (List β)} {n : ℕ} (hn : n ≤ fs.flatten.length)
    (hgs : ∀ g ∈ gs, g ≠ []) : completeFrames (fs ++ gs) n = completeFrames fs n := by
  induction fs generalizing n with
  | nil =>
    cases gs with
    | nil => rfl
    | cons g gs =>
      have hpos : 0 < g.length := List.length_pos_iff.mpr (hgs g List.mem_cons_self)
      rw [List.flatten_nil, List.length_nil] at hn
      exact completeFrames_cons_of_lt gs (by omega)
  | cons f fs ih =>
    rw [List.cons_append]
    by_cases h : f.length ≤ n
    · rw [List.flatten_cons, List.length_append] at hn
      rw [completeFrames_cons_of_le _ h, completeFrames_cons_of_le _ h, ih (by omega)]
    · rw [completeFrames_cons_of_lt _ (by omega), completeFrames_cons_of_lt _ (by omega)]

/-- A longer prefix has the same complete frames and perhaps more. -/
theorem completeFrames_mono (fs : List (List β)) {n m : ℕ} (h : n ≤ m) :
    completeFrames fs n <+: completeFrames fs m := by
  induction fs generalizing n m with
  | nil => exact List.prefix_rfl
  | cons f fs ih =>
    by_cases hn : f.length ≤ n
    · rw [completeFrames_cons_of_le _ hn, completeFrames_cons_of_le _ (by omega)]
      exact (List.prefix_cons_inj f).mpr (ih (by omega))
    · rw [completeFrames_cons_of_lt _ (by omega)]
      exact List.nil_prefix

/-- The complete frames are inside the prefix. -/
theorem completeFrames_length_le (fs : List (List β)) (n : ℕ) :
    (completeFrames fs n).flatten.length ≤ n := by
  induction fs generalizing n with
  | nil => simp
  | cons f fs ih =>
    by_cases h : f.length ≤ n
    · have hrest := ih (n - f.length)
      rw [completeFrames_cons_of_le fs h, List.flatten_cons, List.length_append]
      omega
    · simp [completeFrames_cons_of_lt fs (by omega : n < f.length)]

/-- What is cut off behind the complete frames is shorter than any bound on
the frames. -/
theorem remainder_lt {fs : List (List β)} {n bound : ℕ} (hb : 0 < bound)
    (hfs : ∀ f ∈ fs, f.length ≤ bound) (hn : n ≤ fs.flatten.length) :
    n < (completeFrames fs n).flatten.length + bound := by
  induction fs generalizing n with
  | nil =>
    rw [List.flatten_nil, List.length_nil] at hn
    omega
  | cons f fs ih =>
    have hf := hfs f List.mem_cons_self
    by_cases h : f.length ≤ n
    · rw [List.flatten_cons, List.length_append] at hn
      have hrest := ih (fun g hg => hfs g (List.mem_cons_of_mem f hg))
        (by omega : n - f.length ≤ fs.flatten.length)
      rw [completeFrames_cons_of_le fs h, List.flatten_cons, List.length_append]
      omega
    · rw [completeFrames_cons_of_lt fs (by omega), List.flatten_nil, List.length_nil]
      omega

/-- The complete frames and what is cut off behind them make up the prefix. -/
theorem completeFrames_append_drop {fs : List (List β)} {xs : List β} (h : xs <+: fs.flatten) :
    (completeFrames fs xs.length).flatten ++
      xs.drop (completeFrames fs xs.length).flatten.length = xs := by
  obtain ⟨rest, hrest⟩ := completeFrames_initial fs xs.length
  have hp : (completeFrames fs xs.length).flatten <+: fs.flatten :=
    ⟨rest.flatten, by rw [← List.flatten_append, hrest]⟩
  exact List.prefix_iff_eq_append.mp
    (List.prefix_of_prefix_length_le hp h (completeFrames_length_le fs xs.length))

/-- A prefix of a stream minus its first values is a prefix of the rest. -/
theorem tail_of_append {xs ys zs : List β} (h : xs ++ ys <+: xs ++ zs) : ys <+: zs :=
  (List.prefix_append_right_inj xs).mp h

/-- Handing out the complete frames of newly arrived values keeps the account of
the stream: the frames handed out are the complete ones and the values kept
follow them. -/
theorem completeFrames_step (done : List (List β)) {rest : List (List β)} {kept new : List β}
    (h : kept ++ new <+: rest.flatten) :
    done ++ completeFrames rest (kept ++ new).length =
      completeFrames (done ++ rest) (done.flatten ++ kept ++ new).length ∧
    (done ++ completeFrames rest (kept ++ new).length).flatten ++
      (kept ++ new).drop (completeFrames rest (kept ++ new).length).flatten.length =
      done.flatten ++ kept ++ new := by
  constructor
  · have hlen : (done.flatten ++ kept ++ new).length =
        done.flatten.length + (kept ++ new).length := by
      rw [List.append_assoc, List.length_append]
    rw [hlen, completeFrames_append rest (Nat.le_add_right _ _), Nat.add_sub_cancel_left]
  · rw [List.flatten_append, List.append_assoc, completeFrames_append_drop h, List.append_assoc]

end RioIocpServer.FrameStream
