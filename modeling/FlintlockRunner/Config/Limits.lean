import FlintlockRunner.Base.Int64
import FlintlockRunner.Config.Accepted

/-!
# What the Host Services may store

`hostServices` adds up the limits of the enabled services in the 64 bits of
`ByteSize` and compares the sum with the cache volume's cap. No limit is negative
in an accepted configuration, so the sum is exact as long as it fits and the cap
then holds (`committed_le_sizeCap_iff`). Limits that add up to more come out as a
negative sum, which is below every cap (`cache_volume_overcommitted`).
-/

namespace FlintlockRunner.Config

open List

/-- The storage limits of the enabled Host Services and the size limits of the
upstreams of an enabled HTTP cache. -/
def HostServices.storageLimits (hs : HostServices) : List ByteSize :=
  (if hs.buildkit.isEnabled then [hs.buildkit.storageLimit] else [])
  ++ (if hs.goProxy.isEnabled then [hs.goProxy.storageLimit] else [])
  ++ (if hs.registryMirror.isEnabled then [hs.registryMirror.storageLimit] else [])
  ++ (if hs.httpCache.isEnabled then hs.httpCache.upstreams.map HTTPCacheUpstream.sizeLimit else [])

/-- What the Host Services may store together, as a number without a bound. -/
def HostServices.committed (hs : HostServices) : Int := Words.total hs.storageLimits

namespace Validator

/-- The sum that is compared is the one over the list of all limits. -/
theorem limits_eq_foldl (hs : HostServices) : limits hs = hs.storageLimits.foldl (· + ·) 0 := by
  have hone : ∀ (b : Bool) (x a : ByteSize),
      (if b then [x] else []).foldl (· + ·) a = a + if b then x else 0 := by
    rintro (_ | _) x a <;> simp
  have hmany : ∀ (b : Bool) (us : List HTTPCacheUpstream) (a : ByteSize),
      (if b then us.map HTTPCacheUpstream.sizeLimit else []).foldl (· + ·) a =
        a + if b then us.foldl (fun sum u => sum + u.sizeLimit) 0 else 0 := by
    rintro (_ | _) us a
    · simp
    · have hshift : (us.map HTTPCacheUpstream.sizeLimit).foldl (· + ·) (a + 0) =
          a + (us.map HTTPCacheUpstream.sizeLimit).foldl (· + ·) 0 := foldl_assoc
      simpa [foldl_map] using hshift
  simp only [HostServices.storageLimits, foldl_append, hone, hmany, limits, Int64.zero_add]

theorem buildkit_storageLimit {b : Buildkit} (h : buildkit b = []) : ¬b.storageLimit < 0 :=
  refuse_eq_nil_iff.mp (append_eq_nil_iff.mp h).1

theorem goProxy_storageLimit {g : GoProxy} (h : goProxy g = []) : ¬g.storageLimit < 0 :=
  refuse_eq_nil_iff.mp (append_eq_nil_iff.mp (append_eq_nil_iff.mp h).1).2

theorem registryMirror_storageLimit {r : RegistryMirror} (h : registryMirror r = []) :
    ¬r.storageLimit < 0 :=
  refuse_eq_nil_iff.mp (append_eq_nil_iff.mp (append_eq_nil_iff.mp h).1).2

theorem httpCacheUpstream_sizeLimit {i : Nat} {u : HTTPCacheUpstream} {seen : SeenUpstreams}
    (h : (httpCacheUpstream i u seen).1 = []) : ¬u.sizeLimit < 0 := by
  have hsizes := (append_eq_nil_iff.mp (append_eq_nil_iff.mp h).1).1
  exact refuse_eq_nil_iff.mp (append_eq_nil_iff.mp hsizes).2

theorem httpCache_sizeLimits {c : HTTPCache} (h : httpCache c = []) :
    ∀ u ∈ c.upstreams, ¬u.sizeLimit < 0 :=
  Checks.forall_of_each
    (fun i u seen (hu : (httpCacheUpstream i u seen).1 = []) => httpCacheUpstream_sizeLimit hu) h

/-- No limit of an accepted configuration is negative. -/
theorem storageLimits_nonneg {hs : HostServices} (h : hostServices hs = []) :
    ∀ l ∈ hs.storageLimits, 0 ≤ l.toInt := by
  simp only [hostServices, append_eq_nil_iff] at h
  have hpos : ∀ {l : ByteSize}, ¬l < 0 → 0 ≤ l.toInt := fun h =>
    Int64.le_iff_toInt_le.mp (Int64.not_lt.mp h)
  have hone : ∀ {b : Bool} {x l : ByteSize}, ¬x < 0 → l ∈ (if b then [x] else []) → 0 ≤ l.toInt := by
    rintro (_ | _) x l hx hl
    · exact absurd hl not_mem_nil
    · exact mem_singleton.mp hl ▸ hpos hx
  intro l hl
  simp only [HostServices.storageLimits, mem_append] at hl
  rcases hl with ((hl | hl) | hl) | hl
  · exact hone (buildkit_storageLimit h.1.1.1.1.2) hl
  · exact hone (goProxy_storageLimit h.1.1.1.2) hl
  · exact hone (registryMirror_storageLimit h.1.1.2) hl
  · split at hl
    · obtain ⟨u, hu, rfl⟩ := mem_map.mp hl
      exact hpos (httpCache_sizeLimits h.1.2 u hu)
    · exact absurd hl not_mem_nil

theorem limits_le_sizeCap {hs : HostServices} (h : hostServices hs = []) :
    (limits hs).toInt ≤ hs.cacheVolume.sizeCap.toInt := by
  simp only [hostServices, cacheVolume, append_eq_nil_iff, refuse_eq_nil_iff] at h
  obtain ⟨⟨-, hpos⟩, hcap⟩ := h.2
  exact Int64.le_iff_toInt_le.mp (Int64.not_lt.mp fun hlt => hcap ⟨Int64.not_le.mp hpos, hlt⟩)

end Validator

/-- The cap of an accepted configuration holds what its services may store,
exactly when that is a number of 64 bits. -/
theorem committed_le_sizeCap_iff {c : Config} (h : Accepted c) :
    c.hostServices.committed ≤ c.hostServices.cacheVolume.sizeCap.toInt ↔
      c.hostServices.committed < 2 ^ 63 := by
  have hservices := h.hostServices
  constructor
  · exact fun hle => hle.trans_lt (Int64.toInt_lt _)
  · intro hfits
    have hnonneg := Validator.storageLimits_nonneg hservices
    have hexact : (Validator.limits c.hostServices).toInt = c.hostServices.committed := by
      rw [Validator.limits_eq_foldl, Words.toInt_foldl_add hnonneg le_rfl, Int64.toInt_zero,
        zero_add, HostServices.committed]
      rwa [Int64.toInt_zero, zero_add]
    exact hexact ▸ Validator.limits_le_sizeCap hservices

/-- A file that limits what `buildkit` and the Go proxy store. -/
def limitedFile (buildkit goProxy : ByteSize) : Config :=
  { batteryFile [smallProfile] [smallHost] with
    hostServices := { (default : HostServices) with
      buildkit := { (default : Buildkit) with storageLimit := buildkit }
      goProxy := { (default : GoProxy) with storageLimit := goProxy } } }

theorem limitedFile_accepted {buildkit goProxy : ByteSize}
    (h : Validator.hostServices (defaulted (limitedFile buildkit goProxy)).hostServices = []) :
    Accepted (defaulted (limitedFile buildkit goProxy)) := by
  have hconcurrent : 0 < defaultConcurrency [smallProfile] := by decide
  exact batteryFile_accepted.replace hconcurrent batteryFile_accepted.profiles
    batteryFile_accepted.inventory h

/-- Limits of 1 GiB each. -/
theorem committed_le_sizeCap_limited :
    (defaulted (limitedFile 1073741824 1073741824)).hostServices.committed ≤
      (defaulted (limitedFile 1073741824 1073741824)).hostServices.cacheVolume.sizeCap.toInt :=
  (committed_le_sizeCap_iff (limitedFile_accepted (by decide +kernel))).mpr (by decide +kernel)

/-- Two limits of 4194304TiB, which is 2⁶², are accepted with the default cap:
their sum in 64 bits is negative. -/
theorem cache_volume_overcommitted :
    let c := defaulted (limitedFile 4611686018427387904 4611686018427387904)
    Accepted c ∧ c.hostServices.committed = 2 ^ 63 ∧
      (Validator.limits c.hostServices).toInt = -2 ^ 63 ∧
      ¬c.hostServices.committed ≤ c.hostServices.cacheVolume.sizeCap.toInt := by
  exact ⟨limitedFile_accepted (by decide +kernel), by decide +kernel⟩

end FlintlockRunner.Config
