import PlatformHealth.Config.Validate
import Mathlib.Data.Rat.Cast.CharZero

namespace PlatformHealth

namespace ConfigParser

open Json (Schema)

open Json.Schema

-- whatever number stands under the key is this one, and no negative one
def Written (j : Json) (key : String) (z : Int) : Prop :=
  Optional j key fun v => v.number? = some (z : ℚ) ∧ 0 ≤ z

structure MonitorNumbers (j : Json) (mc : MonitorConfig) : Prop where
  interval : Written j "interval_ms" mc.interval
  timeout : Written j "timeout_ms" mc.timeout
  debounceCount : Written j "debounce_count" mc.debounceCount.toNat

structure EntityNumbers (j : Json) (se : SEConfig) : Prop where
  aliveTimeout : Written j "alive_timeout_ms" se.aliveTimeout
  maxRestartCount : Written j "max_restart_count" se.maxRestartCount.toNat
  restartDelay : Written j "restart_delay_s" se.restartDelay
  monitors : Optional j "monitors" fun mons => List.Forall₂ MonitorNumbers mons.items se.monitors

structure GlobalNumbers (j : Json) (c : PhmConfig) : Prop where
  tickInterval : Written j "tick_interval_ms" c.tickInterval
  eventQueueSize : Written j "event_queue_size" c.eventQueueSize.toNat

structure DocumentNumbers (root : Json) (r : ParseResult) : Prop where
  global : Optional root "global" fun global => GlobalNumbers global r.global
  entities : Optional root "supervised_entities" fun entities =>
    List.Forall₂ EntityNumbers entities.items r.entities

def wholeBelow (bound : Int) : Schema := integer fun z => 0 ≤ z ∧ z < bound

structure MonitorFits (j : Json) : Prop where
  interval : Optional j "interval_ms" (wholeBelow (2 ^ 32))
  timeout : Optional j "timeout_ms" (wholeBelow (2 ^ 32))
  debounceCount : Optional j "debounce_count" (wholeBelow (2 ^ 32))

structure EntityFits (j : Json) : Prop where
  aliveTimeout : Optional j "alive_timeout_ms" (wholeBelow (2 ^ 31))
  maxRestartCount : Optional j "max_restart_count" (wholeBelow (2 ^ 32))
  restartDelay : Optional j "restart_delay_s" (wholeBelow (2 ^ 32))
  monitors : Optional j "monitors" (each MonitorFits)

def held : Schema := fun j => ∀ q, j = .float q → Binary64.round q = some q

structure GlobalFits (j : Json) : Prop where
  tickInterval : Optional j "tick_interval_ms" fun v => wholeBelow (2 ^ 63) v ∧ held v
  eventQueueSize : Optional j "event_queue_size" (wholeBelow (2 ^ 32))

structure DocumentFits (root : Json) : Prop where
  global : Optional root "global" GlobalFits
  entities : Optional root "supervised_entities" (each EntityFits)

section
variable {rt : CppRuntime} {j v w : Json} {key : String} {α : Type}

def Keeps (get : Json → Except CppException α) (z : α → Int) (S : Schema) : Prop :=
  ∀ v a, get v.rounded = .ok a → (v.number? = some (z a : ℚ) ∧ 0 ≤ z a ↔ S v)

section
variable {get : Json → Except CppException α} {z : α → Int} {S : Schema} {a default : α}

theorem Keeps.written_value (h : Keeps get z S) (hvalue : value j.rounded key get default = .ok a) :
    Written j key (z a) ↔ Optional j key S := by
  refine forall₂_congr fun v hv => h v a ?_
  cases j with
  | object members =>
    have hlookup : (Json.mapMembers Json.roundedScalar members).lookup key = some v.rounded := by
      rw [Json.lookup_mapMembers]
      exact congrArg (Option.map Json.rounded) hv
    have hobject : (Json.object members).rounded = .object (Json.mapMembers Json.roundedScalar members) := rfl
    rwa [hobject, value, hlookup] at hvalue
  | _ => cases hv

theorem Keeps.written_field (h : Keeps get z S) (hfield : field j.rounded key get default = .ok a) :
    Written j key (z a) ↔ Optional j key S := by
  refine forall₂_congr fun v hv => h v a ?_
  rwa [field, Json.member_rounded, hv] at hfield

end

theorem number?_unsigned {n : UInt64} {w : Int} (h : (Json.unsigned n).number? = some (w : ℚ)) :
    w = n.toNat := by
  have hq : (n.toNat : ℚ) = (w : ℚ) := Option.some.inj h
  exact_mod_cast hq.symm

theorem number?_integer {n : Int64} {w : Int} (h : (Json.integer n).number? = some (w : ℚ)) :
    w = n.toInt := by
  have hq : (n.toInt : ℚ) = (w : ℚ) := Option.some.inj h
  exact_mod_cast hq.symm

theorem keeps_of_kinds {get : Json → Except CppException α} {z : α → Int} {bound : Int} (hbound : bound ≤ 2 ^ 53)
    (hlt : ∀ a, z a < bound)
    (hunsigned : ∀ n a, get (.unsigned n) = .ok a → (n.toNat : Int) < bound → z a = n.toNat)
    (hinteger : ∀ n a, get (.integer n) = .ok a → 0 ≤ n.toInt → n.toInt < bound → z a = n.toInt)
    (hfloat : ∀ (w : Int) a, get (.float w) = .ok a → 0 ≤ w → w < bound → z a = w) :
    Keeps get z (wholeBelow bound) := by
  refine fun v a ha => ⟨fun h => ⟨z a, h.1, h.2, hlt a⟩, ?_⟩
  rintro ⟨w, hw, hnonneg, hw_lt⟩
  suffices hkept : z a = w by
    rw [hkept]
    exact ⟨hw, hnonneg⟩
  cases v with
  | unsigned n =>
    rw [number?_unsigned hw] at hw_lt ⊢
    exact hunsigned n a ha hw_lt
  | integer n =>
    rw [number?_integer hw] at hw_lt hnonneg ⊢
    exact hinteger n a ha hnonneg hw_lt
  | float q =>
    obtain rfl : q = (w : ℚ) := Option.some.inj hw
    have hdouble : Binary64.toDouble (w : ℚ) = w := by
      obtain ⟨n, rfl⟩ := Int.eq_ofNat_of_zero_le hnonneg
      exact Binary64.toDouble_natCast (by omega)
    refine hfloat w a ?_ hnonneg hw_lt
    rwa [← hdouble]
  | _ => cases hw

theorem keeps_getUInt32 : Keeps (getUInt32 rt) (fun n => n.toNat) (wholeBelow (2 ^ 32)) := by
  refine keeps_of_kinds (by decide) (fun n => Int.ofNat_lt.mpr n.toNat_lt) ?_ ?_ ?_
  · rintro n _ ⟨⟩ hlt
    rw [UInt64.toNat_toUInt32]
    omega
  · rintro n _ ⟨⟩ hnonneg hlt
    rw [UInt32.ofInt, UInt32.toNat_ofNat']
    omega
  · rintro w _ ⟨⟩ hnonneg hlt
    have hlow : (-1 : Int) < w := by omega
    rw [rt.uint32_of_range w (by exact_mod_cast hlow) (by exact_mod_cast hlt), Rat.floor_intCast,
      UInt32.toNat_ofNat']
    omega

theorem keeps_getInt32 : Keeps (getInt32 rt) Int32.toInt (wholeBelow (2 ^ 31)) := by
  refine keeps_of_kinds (by decide) (fun n => n.toInt_lt) ?_ ?_ ?_
  · rintro n _ ⟨⟩ hlt
    exact Int32.toInt_ofInt_of_le (by omega) hlt
  · rintro n _ ⟨⟩ hnonneg hlt
    exact Int32.toInt_ofInt_of_le (by omega) hlt
  · rintro w _ ⟨⟩ hnonneg hlt
    have hlow : (-2 ^ 31 - 1 : Int) < w := by omega
    have hpos : ¬ (w : ℚ) < 0 := by exact_mod_cast Int.not_lt.mpr hnonneg
    rw [rt.int32_of_range w (by exact_mod_cast hlow) (by exact_mod_cast hlt), if_neg hpos,
      Rat.floor_intCast]
    exact Int32.toInt_ofInt_of_le (by omega) hlt

theorem toInt_toInt64 (n : UInt64) :
    n.toInt64.toInt = if n.toNat < 2 ^ 63 then (n.toNat : Int) else n.toNat - 2 ^ 64 := by
  have hlt := n.toNat_lt
  have hsize : Int64.size = 2 ^ 64 := rfl
  have hint : n.toInt64.toInt = (n.toNat : Int).bmod Int64.size := by
    conv_lhs => rw [← @UInt64.ofNat_toNat n]
    rw [UInt64.toInt64_ofNat', Int64.toInt_ofNat']
  rw [hint, hsize, Int.bmod]
  split_ifs <;> omega

theorem toNat_uint64OfDouble {m : Nat} (h : m < 2 ^ 64) : (rt.uint64OfDouble m).toNat = m := by
  have hlow : (-1 : ℚ) < m := by linarith [(Nat.cast_nonneg m : (0 : ℚ) ≤ m)]
  have hfloor : (m : ℚ).floor = m := Rat.floor_intCast m
  rw [rt.uint64_of_range m hlow (by exact_mod_cast h), hfloor, Int.toNat_natCast, UInt64.toNat_ofNat']
  omega

theorem toDouble_isNat {w : Nat} (h : w < 2 ^ 63) : ∃ m : Nat, m < 2 ^ 64 ∧ Binary64.toDouble (w : ℚ) = m := by
  by_cases hsmall : w < 2 ^ 53
  · exact ⟨w, by omega, Binary64.toDouble_natCast hsmall⟩
  · have hnormal := Binary64.normal_natCast (show 0 < w by omega) (by omega)
    obtain ⟨z, hz⟩ := hnormal.toDouble_isInt (by exact_mod_cast (show 2 ^ 52 ≤ w by omega))
    obtain ⟨hlow, hhigh⟩ := abs_le.mp (Binary64.abs_toDouble_sub_le (.inr hnormal))
    have hw : (w : ℚ) < 2 ^ 63 := by exact_mod_cast h
    have hw' : (0 : ℚ) ≤ w := Nat.cast_nonneg w
    rw [hz] at hlow hhigh
    have hnonneg : (0 : ℚ) ≤ z := by linarith
    have hlt : (z : ℚ) < 2 ^ 64 := by linarith
    obtain ⟨m, rfl⟩ := Int.eq_ofNat_of_zero_le (by exact_mod_cast hnonneg)
    exact ⟨m, by exact_mod_cast hlt, by rw [hz, Int.cast_natCast]⟩

theorem held_natCast {w : Nat} (h : w < 2 ^ 64) (hd : Binary64.toDouble (w : ℚ) = w) :
    Binary64.round (w : ℚ) = some (w : ℚ) := by
  by_cases hsmall : w < 2 ^ 53
  · exact Binary64.round_natCast hsmall
  · rw [(Binary64.normal_natCast (show 0 < w by omega) h).round_toDouble, hd]

theorem keeps_tick : Keeps (fun v => do return (← getUInt64 rt v).toInt64.toInt) id
    fun v => wholeBelow (2 ^ 63) v ∧ held v := by
  intro v a ha
  obtain ⟨n, hn, rfl⟩ : ∃ n, getUInt64 rt v.rounded = .ok n ∧ n.toInt64.toInt = a := by
    obtain ⟨n, hn, hreturn⟩ := Yields.bind_eq_ok_iff.mp ha
    exact ⟨n, hn, Except.ok.inj hreturn⟩
  rw [id, toInt_toInt64]
  have hbound := n.toNat_lt
  constructor
  · rintro ⟨hv, hnonneg⟩
    split_ifs at hv hnonneg with hsmall
    · refine ⟨⟨n.toNat, hv, by omega, by omega⟩, ?_⟩
      rintro q rfl
      obtain rfl : q = (n.toNat : ℚ) := Option.some.inj hv
      obtain ⟨m, hm, hdouble⟩ := toDouble_isNat hsmall
      have hnat : n.toNat = m := by
        rw [← Except.ok.inj hn, hdouble]
        exact toNat_uint64OfDouble hm
      exact held_natCast hbound (by rw [hdouble, hnat])
    · omega
  · rintro ⟨⟨w, hw, hnonneg, hlt⟩, hheld⟩
    suffices hnat : (n.toNat : Int) = w by
      rw [if_pos (by omega), hnat]
      exact ⟨hw, hnonneg⟩
    cases v with
    | unsigned m =>
      cases hn
      exact (number?_unsigned hw).symm
    | integer m =>
      cases hn
      rw [number?_integer hw] at hnonneg hlt ⊢
      rw [UInt64.ofInt, UInt64.toNat_ofNat']
      omega
    | float q =>
      obtain rfl : q = (w : ℚ) := Option.some.inj hw
      obtain ⟨m, rfl⟩ := Int.eq_ofNat_of_zero_le hnonneg
      have hdouble : Binary64.toDouble ((m : Int) : ℚ) = m := by
        rw [Binary64.toDouble_of_round (hheld _ rfl), Int.cast_natCast]
      rw [← Except.ok.inj hn, hdouble, toNat_uint64OfDouble (by omega)]
    | _ => cases hw

theorem monitorNumbers_iff {mc : MonitorConfig} (h : parseMonitorConfig rt j.rounded = .ok mc) :
    MonitorNumbers j mc ↔ MonitorFits j := by
  have hyields : Yields (parseMonitorConfig rt j.rounded) (· = mc) := ⟨mc, h, rfl⟩
  simp only [parseMonitorConfig, Yields.bind_iff, Yields.guard_iff, Yields.pure_iff] at hyields
  obtain ⟨type, -, -, enabled, -, interval, hinterval, timeout, htimeout, debounceCount, hdebounce,
    -, -, -, -, -, -, -, -, -, -, -, -, rfl⟩ := hyields
  constructor
  · rintro ⟨hi, ht, hd⟩
    exact ⟨(keeps_getUInt32.written_value hinterval).mp hi,
      (keeps_getUInt32.written_value htimeout).mp ht,
      (keeps_getUInt32.written_value hdebounce).mp hd⟩
  · rintro ⟨hi, ht, hd⟩
    exact ⟨(keeps_getUInt32.written_value hinterval).mpr hi,
      (keeps_getUInt32.written_value htimeout).mpr ht,
      (keeps_getUInt32.written_value hdebounce).mpr hd⟩

theorem value_rounded {as : List Json} (h : value j.rounded key .ok (.array as) = .ok v)
    (hmember : j.member key = some w) : v = w.rounded := by
  have hrounded : j.rounded.member key = some w.rounded := by rw [Json.member_rounded, hmember, Option.map_some]
  cases hj : j.rounded with
  | object members =>
    rw [hj] at h hrounded
    have hlookup : members.lookup key = some w.rounded := hrounded
    rw [value, hlookup] at h
    exact (Except.ok.inj h).symm
  | _ =>
    rw [hj] at hrounded
    cases hrounded

theorem forall₂_items_iff {β : Type} {f : Json → Except CppException β} {bs : List β}
    {T : Json → β → Prop} {S : Schema} (hone : ∀ a b, f a.rounded = .ok b → (T a b ↔ S a))
    (hvalue : value j.rounded key .ok (.array []) = .ok v) (hmap : v.items.mapM f = .ok bs) :
    (Optional j key fun list => List.Forall₂ T list.items bs) ↔ Optional j key (each S) := by
  refine forall₂_congr fun w hw => ?_
  rw [value_rounded hvalue hw, Json.items_rounded, List.mapM_map] at hmap
  exact Yields.forall₂_iff_of_mapM hone hmap

theorem entityNumbers_iff {se : SEConfig} (h : parseEntityConfig rt j.rounded = .ok se) :
    EntityNumbers j se ↔ EntityFits j := by
  have hyields : Yields (parseEntityConfig rt j.rounded) (· = se) := ⟨se, h, rfl⟩
  simp only [parseEntityConfig, Yields.bind_iff, Yields.guard_iff, Yields.pure_iff] at hyields
  obtain ⟨name, -, -, description, -, alive, halive, autoRestart, -, restarts, hrestarts, delay,
    hdelay, enabled, -, deps, -, dependencies, -, mons, hmons, monitors, hmonitors, rfl⟩ := hyields
  have hlist := forall₂_items_iff (fun _ _ => monitorNumbers_iff) hmons hmonitors
  constructor
  · rintro ⟨ha, hr, hd, hm⟩
    exact ⟨(keeps_getInt32.written_value halive).mp ha,
      (keeps_getUInt32.written_value hrestarts).mp hr,
      (keeps_getUInt32.written_value hdelay).mp hd, hlist.mp hm⟩
  · rintro ⟨ha, hr, hd, hm⟩
    exact ⟨(keeps_getInt32.written_value halive).mpr ha,
      (keeps_getUInt32.written_value hrestarts).mpr hr,
      (keeps_getUInt32.written_value hdelay).mpr hd, hlist.mpr hm⟩

theorem globalNumbers_iff {c : PhmConfig} {global : Json} (hglobal : j.member "global" = some global)
    (h : parseGlobalConfig rt j.rounded = .ok c) : GlobalNumbers global c ↔ GlobalFits global := by
  have hyields : Yields (parseGlobalConfig rt j.rounded) (· = c) := ⟨c, h, rfl⟩
  have hmember : j.rounded.member "global" = some global.rounded := by
    rw [Json.member_rounded, hglobal, Option.map_some]
  simp only [parseGlobalConfig, hmember, Yields.bind_iff, Yields.pure_iff] at hyields
  obtain ⟨tick, htick, logDir, -, recovery, -, size, hsize, appName, -, version, -, endpoint, -,
    rfl⟩ := hyields
  constructor
  · rintro ⟨ht, hs⟩
    exact ⟨(keeps_tick.written_field htick).mp ht, (keeps_getUInt32.written_field hsize).mp hs⟩
  · rintro ⟨ht, hs⟩
    exact ⟨(keeps_tick.written_field htick).mpr ht, (keeps_getUInt32.written_field hsize).mpr hs⟩

theorem documentNumbers_iff {r : ParseResult} (h : parseRoot rt j.rounded = .ok r) :
    DocumentNumbers j r ↔ DocumentFits j := by
  have hyields : Yields (parseRoot rt j.rounded) (· = r) := ⟨r, h, rfl⟩
  simp only [parseRoot, Yields.bind_iff, Yields.pure_iff] at hyields
  obtain ⟨config, hconfig, list, hlist, entities, hentities, rfl⟩ := hyields
  have hglobal : (Optional j "global" fun global => GlobalNumbers global config) ↔
      Optional j "global" GlobalFits :=
    forall₂_congr fun global hmember => globalNumbers_iff hmember hconfig
  have hitems := forall₂_items_iff (fun _ _ => entityNumbers_iff) hlist hentities
  constructor
  · rintro ⟨hg, he⟩
    exact ⟨hglobal.mp hg, hitems.mp he⟩
  · rintro ⟨hg, he⟩
    exact ⟨hglobal.mpr hg, hitems.mpr he⟩

end

theorem numbers_survive_iff (rt : CppRuntime) (text : List UInt8) (lastError : String) (r : ParseResult)
    (haccept : outcome (parseString rt text) lastError = some r) :
    ∃ written, Json.parse true text Json.asWritten = .ok written ∧
      (DocumentNumbers written r ↔ DocumentFits written) := by
  cases hread : Json.parse true text with
  | error e => cases (outcome_of_unread hread).symm.trans haccept
  | ok root =>
    obtain ⟨written, hwritten, rfl⟩ := Json.asWritten_of_parse hread
    have hoption : (parseRoot rt written.rounded).toOption = some r := (outcome_of_parsed hread).symm.trans haccept
    refine ⟨written, hwritten, ?_⟩
    cases hroot : parseRoot rt written.rounded with
    | error e =>
      rw [hroot] at hoption
      cases hoption
    | ok result =>
      rw [hroot] at hoption
      cases hoption
      exact documentNumbers_iff hroot

theorem fits_intervalDocument {interval : Json} :
    DocumentFits (intervalDocument interval) ↔ wholeBelow (2 ^ 32) interval := by
  constructor
  · rintro ⟨-, hentities⟩
    have hentity : EntityFits _ := hentities _ rfl _ (List.mem_singleton_self _)
    have hmonitor : MonitorFits _ := hentity.monitors _ rfl _ (List.mem_singleton_self _)
    exact hmonitor.interval interval rfl
  · intro h
    refine ⟨nofun, ?_⟩
    rintro _ ⟨⟩ _ (_ | ⟨_, ⟨⟩⟩)
    refine ⟨nofun, nofun, nofun, ?_⟩
    rintro _ ⟨⟩ _ (_ | ⟨_, ⟨⟩⟩)
    refine ⟨?_, nofun, nofun⟩
    rintro _ ⟨⟩
    exact h

theorem positive_interval_survives :
    ∃ r, outcome (parseString .truncating (intervalText "1e3")) "" = some r ∧
      ∃ written, Json.parse true (intervalText "1e3") Json.asWritten = .ok written ∧ DocumentNumbers written r := by
  have hread : Json.parse true (intervalText "1e3") Json.asWritten = .ok (intervalDocument (.float 1000)) := by
    decide +kernel
  have hrounded : Json.parse true (intervalText "1e3") = .ok (intervalDocument (.float 1000)).rounded := by
    decide +kernel
  obtain ⟨r, hr⟩ : Returns (parseRoot .truncating (intervalDocument (.float 1000)).rounded) := ⟨_, rfl⟩
  have haccept : outcome (parseString .truncating (intervalText "1e3")) "" = some r :=
    (outcome_of_parsed hrounded).trans (by rw [hr]; rfl)
  refine ⟨r, haccept, ?_⟩
  obtain ⟨written, hwritten, hiff⟩ := numbers_survive_iff .truncating (intervalText "1e3") "" r haccept
  refine ⟨written, hwritten, hiff.mpr ?_⟩
  cases hread.symm.trans hwritten
  exact fits_intervalDocument.mpr ⟨1000, rfl, by decide⟩

theorem negative_interval_wraps :
    Json.parse true (intervalText "-1") Json.asWritten = .ok (intervalDocument (.integer (-1))) ∧
      ∃ r, outcome (parseString .truncating (intervalText "-1")) "" = some r ∧
        (r.entities.flatMap (·.monitors)).map (·.interval) = [4294967295] ∧
        ¬ DocumentNumbers (intervalDocument (.integer (-1))) r := by
  have hread : Json.parse true (intervalText "-1") Json.asWritten = .ok (intervalDocument (.integer (-1))) := by
    decide +kernel
  have hrounded : Json.parse true (intervalText "-1") = .ok (intervalDocument (.integer (-1))) := by
    decide +kernel
  obtain ⟨r, hr, hinterval⟩ : ∃ r, parseRoot .truncating (intervalDocument (.integer (-1))) = .ok r ∧
      (r.entities.flatMap (·.monitors)).map (·.interval) = [4294967295] := ⟨_, rfl, rfl⟩
  refine ⟨hread, r, (outcome_of_parsed hrounded).trans (by rw [hr]; rfl), hinterval, fun h => ?_⟩
  obtain ⟨n, hn, hnonneg, -⟩ := fits_intervalDocument.mp ((documentNumbers_iff hr).mp h)
  obtain rfl : n = -1 := number?_integer hn
  exact absurd hnonneg (by decide)

end ConfigParser

end PlatformHealth
