import Bedrock.Ioctl

/-!
# The seed of the random device

The random device draws from an xorshift generator.  Each of its three shifts can be undone
bit by bit, so no draw loses information, and the seed never becomes zero, from which the
generator would not recover.
-/

namespace Bedrock

open Support

namespace RandomState

/-- `seeded_rng` -/
def seededRng (seed : UInt64) : RandomState :=
  { mode := .seededRng, seed := if seed = 0 then 1 else seed }

/-- `exit_to_userspace` -/
def exitToUserspace : RandomState :=
  { mode := .exitToUserspace }

/-- The devices that the constructors, `configure` and draws lead to. -/
inductive Reached : RandomState → Prop
  | default : Reached {}
  | seededRng (seed : UInt64) : Reached (.seededRng seed)
  | exitToUserspace : Reached .exitToUserspace
  | configure {random : RandomState} (h : Reached random) (mode : RdrandMode) (seed : UInt64) :
      Reached (random.configure mode seed)
  | draw {random : RandomState} (h : Reached random) : Reached random.nextSeededU64.2

theorem xorshift_injective {a b : RandomState}
    (h : a.nextSeededU64.2.seed = b.nextSeededU64.2.seed) : a.seed = b.seed := by
  have hlast := xor_shiftLeft_injective (by decide : 0 < 17) (congrArg UInt64.toBitVec h)
  have hmiddle := xor_shiftRight_injective (by decide : 0 < 7) hlast
  have hfirst := xor_shiftLeft_injective (by decide : 0 < 13) hmiddle
  exact UInt64.eq_of_toBitVec_eq hfirst

theorem Reached.seed_ne_zero {random : RandomState} (h : Reached random) : random.seed ≠ 0 := by
  have hforced : ∀ seed : UInt64, (if seed = 0 then 1 else seed) ≠ 0 := by
    intro seed
    split
    · decide
    · assumption
  induction h with
  | default => decide
  | seededRng seed => exact hforced seed
  | exitToUserspace => decide
  | configure _ _ seed _ => exact hforced seed
  | draw _ ih =>
    intro hzero
    have hfixed : ({ seed := 0 } : RandomState).nextSeededU64.2.seed = 0 := rfl
    exact ih (xorshift_injective (hzero.trans hfixed.symm))

end RandomState

/-- The seed is never zero, a draw is injective on seeds, and devices with different seeds
keep different seeds over equally many draws. -/
theorem random_seeds_kept_apart :
    (∀ random : RandomState, random.Reached → random.seed ≠ 0) ∧
    (∀ a b : RandomState, a.nextSeededU64.2.seed = b.nextSeededU64.2.seed → a.seed = b.seed) ∧
    ∀ (n : Nat) (a b : RandomState), a.seed ≠ b.seed →
      ((fun r : RandomState => r.nextSeededU64.2)^[n] a).seed ≠
        ((fun r : RandomState => r.nextSeededU64.2)^[n] b).seed := by
  refine ⟨fun _ h => h.seed_ne_zero, fun _ _ => RandomState.xorshift_injective, fun n => ?_⟩
  induction n with
  | zero => exact fun _ _ h => h
  | succ n ih =>
    intro a b h
    rw [Function.iterate_succ_apply, Function.iterate_succ_apply]
    exact ih _ _ fun heq => h (RandomState.xorshift_injective heq)

theorem random_seeds_kept_apart_draw :
    ((RandomState.seededRng 0).nextSeededU64.2.configure .exitToUserspace 0).seed ≠ 0 ∧
      (RandomState.seededRng 5).nextSeededU64.2.seed ≠
        (RandomState.seededRng 6).nextSeededU64.2.seed :=
  ⟨random_seeds_kept_apart.1 _ (.configure (.draw (.seededRng 0)) .exitToUserspace 0),
    random_seeds_kept_apart.2.2 1 (.seededRng 5) (.seededRng 6) (by decide)⟩

end Bedrock
