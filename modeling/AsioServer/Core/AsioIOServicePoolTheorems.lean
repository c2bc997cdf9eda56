/-
AsioServer.Core.AsioIOServicePoolTheorems — when there is a context to hand out.

The configured size is narrowed twice, to `int` and to `uint16_t`, which is one
narrowing (`threadPoolSize_of_integer`). A size that is zero or above the number of
hardware threads is replaced by half of that number, which is zero on a machine
with one thread: the pool has a context exactly when there are two threads, or
one and the setting is one (`poolSize_pos_iff`).

The contexts are handed out in turn (`indices_eq`), so that the calls of `GetIOServive`
fall on them in equal numbers up to one, and up to one more for each time the counter
wraps (`load_balanced`). A call is what counts here: one whose accept fails, or one that
`MySQLConnectionPool` makes, takes its turn without a session.
-/
import Mathlib.Data.Int.CardIntervalMod
import AsioServer.Core.AsioIOServicePool
import AsioServer.Infra.JsonTheorems

namespace AsioServer.Core

open AsioServer.Config AsioServer.Infra

/-! ## The configured size -/

/-- An integer in the file arrives modulo 2^16, whatever its width. -/
theorem threadPoolSize_of_integer {reader : ConfigReader} {fields : List (Bytes × Json)} {i : Int}
    (hloaded : reader.isLoaded = true) (hjson : reader.configJson = some (.object fields))
    (hi : fields.lookup (ascii "thread_pool_size") = some (.integer i)) :
    (readSettings reader).threadPoolSize = (i % 65536).toNat := by
  have htokens : tokens (ascii "thread_pool_size") = some [ascii "thread_pool_size"] := by
    decide +kernel
  have hread : reader.getInt (ascii "thread_pool_size") = some (Json.toInt32 i) := by
    simp [ConfigReader.getInt, ConfigReader.get, hloaded, hjson, htokens, pointed, hi, Json.getInt]
  calc (readSettings reader).threadPoolSize
      = (Json.toUInt16 (Json.toInt32 i)).toNat := by
        rw [readSettings, threadPoolSetting, hread]; rfl
    _ = (i % 65536).toNat := by rw [toUInt16_toInt32]; rfl

namespace AsioIOServicePool

/-! ## The size of the pool -/

/-- Never more contexts than hardware threads. -/
theorem poolSize_le (hw : Nat) (config : ConfigManager) : poolSize hw config ≤ hw := by
  unfold poolSize
  dsimp only
  split
  · next h => exact h.2
  · exact Nat.div_le_self hw 2

theorem poolSize_pos_iff (hw : Nat) (config : ConfigManager) :
    0 < poolSize hw config ↔ 2 ≤ hw ∨ (hw = 1 ∧ config.threadPoolSize = 1) := by
  unfold poolSize
  dsimp only
  split
  · next h => omega
  · next h => omega

/-! ## Handing out -/

/-- What the constructor establishes and `GetIOServive` keeps. -/
structure WellFormed (pool : AsioIOServicePool) : Prop where
  modulus : pool.maxSize = pool.ioServices
  nonempty : 0 < pool.ioServices

/-- One call: the index is below the number of contexts, whatever the counter. -/
theorem WellFormed.getIOServive {pool : AsioIOServicePool} (h : pool.WellFormed) :
    ∃ i pool', pool.getIOServive = some (i, pool') ∧ i < pool.ioServices ∧ pool'.WellFormed := by
  have hne : pool.maxSize ≠ 0 := by rw [h.modulus]; exact Nat.pos_iff_ne_zero.mp h.nonempty
  refine ⟨pool.nextIndex % pool.maxSize,
    { pool with nextIndex := (pool.nextIndex + 1) % 2 ^ 64 }, if_neg hne, ?_,
    ⟨h.modulus, h.nonempty⟩⟩
  rw [h.modulus]
  exact Nat.mod_lt _ h.nonempty

/-- The indices that the next calls answer; `none` when one of them divides by zero. -/
def indices : Nat → AsioIOServicePool → Option (List Nat)
  | 0, _ => some []
  | calls + 1, pool =>
      pool.getIOServive.bind fun (i, pool') => (indices calls pool').map (i :: ·)

/-- **Round robin**: the calls go round the contexts in order. When the counter
wraps the order starts over. -/
theorem indices_eq {size counter : Nat} (hpos : 0 < size) (hcounter : counter < 2 ^ 64)
    (calls : Nat) :
    indices calls ⟨size, counter, size⟩ =
      some ((List.range calls).map fun k => (counter + k) % 2 ^ 64 % size) := by
  induction calls generalizing counter with
  | zero => rfl
  | succ calls ih =>
      have hcall : getIOServive ⟨size, counter, size⟩ =
          some (counter % size, ⟨size, (counter + 1) % 2 ^ 64, size⟩) :=
        if_neg (Nat.pos_iff_ne_zero.mp hpos)
      have hrest : ∀ k, ((counter + 1) % 2 ^ 64 + k) % 2 ^ 64 = (counter + (k + 1)) % 2 ^ 64 := by
        intro k
        rw [Nat.mod_add_mod, Nat.add_assoc, Nat.add_comm 1 k]
      have hhead : (counter + 0) % 2 ^ 64 = counter := Nat.mod_eq_of_lt hcounter
      rw [indices, hcall, Option.bind_some]
      dsimp only
      rw [ih (Nat.mod_lt _ (by decide)), Option.map_some,
        List.range_succ_eq_map, List.map_cons, List.map_map, hhead]
      simp only [Function.comp_def, hrest, Nat.succ_eq_add_one]

/-! ## The load of the contexts -/

/-- How many of the first `calls` of `GetIOServive` on a new pool are answered with
context `i`. -/
def load (size calls i : Nat) : Nat := ((indices calls (new size)).getD []).count i

theorem load_eq_count {size calls i : Nat} (hpos : 0 < size) :
    load size calls i = Nat.count (fun k => k % 2 ^ 64 % size = i) calls := by
  rw [load, new, indices_eq hpos (by decide), Option.getD_some, List.count, List.countP_map,
    Nat.count]
  simp only [Nat.zero_add, Function.comp_def, beq_eq_decide]

/-- Up to a wrap of the counter the contexts differ by one call at most. -/
theorem count_mod_le {size b i j : Nat} (hi : i < size) (hj : j < size) :
    Nat.count (fun k => k % size = i) b ≤ Nat.count (fun k => k % size = j) b + 1 := by
  have hcount : ∀ v, v < size → Nat.count (fun k => k % size = v) b =
      b / size + if v < b % size then 1 else 0 := by
    intro v hv
    have hcard := Nat.count_modEq_card b (Nat.zero_lt_of_lt hv) v
    simp only [Nat.ModEq, Nat.mod_eq_of_lt hv] at hcard
    exact hcard
  rw [hcount i hi, hcount j hj]
  split <;> split <;> omega

/-- The calls of `wraps` rounds of the counter and of the round that is not complete. -/
theorem count_wraps (size i wraps : Nat) {calls : Nat} (hcalls : calls ≤ 2 ^ 64) :
    Nat.count (fun k => k % 2 ^ 64 % size = i) (wraps * 2 ^ 64 + calls) =
      wraps * Nat.count (fun k => k % size = i) (2 ^ 64) +
        Nat.count (fun k => k % size = i) calls := by
  have hround : ∀ {n}, n ≤ 2 ^ 64 → Nat.count (fun k => k % 2 ^ 64 % size = i) n =
      Nat.count (fun k => k % size = i) n := by
    intro n hn
    refine List.countP_congr fun k hk => ?_
    have hlt := List.mem_range.mp hk
    simp only [Nat.mod_eq_of_lt (show k < 2 ^ 64 by omega)]
  induction wraps with
  | zero => simpa using hround hcalls
  | succ wraps ih =>
      rw [Nat.succ_mul, Nat.add_comm (wraps * 2 ^ 64), Nat.add_assoc, Nat.count_add]
      simp only [Nat.add_mod_left, hround (Nat.le_refl _), ih]
      ring

/-- **The calls are balanced.** After any number of calls of `GetIOServive` two contexts have
been handed out equally often up to one, and up to one more for each time the counter has
wrapped. -/
theorem load_balanced {size calls i j : Nat} (hi : i < size) (hj : j < size) :
    load size calls i ≤ load size calls j + calls / 2 ^ 64 + 1 := by
  have hpos := Nat.zero_lt_of_lt hi
  have hsplit := Nat.div_add_mod' calls (2 ^ 64)
  have hrest : calls % 2 ^ 64 ≤ 2 ^ 64 := (Nat.mod_lt calls (by decide)).le
  have hrounds := Nat.mul_le_mul_left (calls / 2 ^ 64) (count_mod_le (b := 2 ^ 64) hi hj)
  have hlast := count_mod_le (b := calls % 2 ^ 64) hi hj
  rw [load_eq_count hpos, load_eq_count hpos, ← hsplit, count_wraps size i _ hrest,
    count_wraps size j _ hrest, hsplit]
  rw [Nat.mul_add, Nat.mul_one] at hrounds
  omega

theorem load_balanced_three_contexts : load 3 10 0 ≤ load 3 10 2 + 1 :=
  @load_balanced 3 10 0 2 (by decide) (by decide)

/-! ## The pool of the server -/

/-- The pool has a context, and every value of the counter leads to one. -/
def Serves (pool : AsioIOServicePool) : Prop :=
  1 ≤ pool.maxSize ∧ ∀ counter, ∃ i pool',
    getIOServive { pool with nextIndex := counter } = some (i, pool') ∧ i < pool.ioServices

theorem serves_new_iff (size : Nat) : (new size).Serves ↔ 0 < size := by
  constructor
  · exact fun h => h.1
  · intro hpos
    refine ⟨hpos, fun counter => ?_⟩
    have hwf : WellFormed { new size with nextIndex := counter } := ⟨rfl, hpos⟩
    obtain ⟨i, pool', hcall, hi, -⟩ := hwf.getIOServive
    exact ⟨i, pool', hcall, hi⟩

/-- **The pool of `GetInstance` can serve exactly when the machine has two hardware
threads, or one and the configured integer is one modulo 2^16.** -/
theorem io_pool_serves_iff (hw : Nat) (reader : ConfigReader) :
    (getInstance hw (readSettings reader)).Serves ↔
      2 ≤ hw ∨ (hw = 1 ∧ threadPoolSetting reader % 65536 = 1) := by
  rw [getInstance, serves_new_iff, poolSize_pos_iff]
  have hsize : (readSettings reader).threadPoolSize = 1 ↔ threadPoolSetting reader % 65536 = 1 := by
    change (threadPoolSetting reader % 65536).toNat = 1 ↔ _
    omega
  rw [hsize]

/-- The settings that the server ships with, as read from the file. -/
def shippedReader : ConfigReader :=
  { configJson := some (.object
      [(ascii "log_path", .string (ascii "../logs/server.log")),
        (ascii "port", .integer 19998),
        (ascii "thread_pool_size", .integer 2)])
    configFilePath := ascii "/srv/config/server.json"
    isLoaded := true }

/-- With one hardware thread the shipped settings make a pool without a context,
and the first call divides by zero. -/
theorem one_thread_has_no_context :
    ¬ (getInstance 1 (readSettings shippedReader)).Serves ∧
      (getInstance 1 (readSettings shippedReader)).getIOServive = none := by
  constructor
  · intro h
    exact absurd h.1 (by decide +kernel)
  · decide +kernel

end AsioIOServicePool

end AsioServer.Core
