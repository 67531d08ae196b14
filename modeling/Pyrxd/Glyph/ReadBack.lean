import Pyrxd.Glyph.CommitReveal
import Pyrxd.Glyph.Decode

/-!
# Metadata that is read back

What `decode_payload` makes of what `encode_payload` wrote (`decode_encode`).
Each part reads back as it was, but for the DAA fields of a FIXED contract,
which are not written, and an empty policy or rights object. The decoder's
limits on texts and attributes are not the constructor's, so that not everything
that is encoded is read.
-/

namespace Pyrxd.Glyph

open Pyrxd.Lib
open CborObjects (entry entryOr)
open Cbor (present textField intField lookup)

/-! ## Dicts as they are read -/

/-- The entries of a dict with these fields, each value in the form `g` gives
it. -/
def Shows (g : Cbor → Cbor) (fields : List (String × Option Cbor))
    (d : List (Cbor × Cbor)) : Prop :=
  ∀ key, lookup key d = (fields.lookup key).join.map g

/-- The forms in which an object that was written comes back: as it was, or in
canonical order. -/
structure Rendering (g : Cbor → Cbor) : Prop where
  int : ∀ n, g (.int n) = .int n
  bool : ∀ b, g (.bool b) = .bool b
  text : ∀ s, g (.text s) = .text s
  bytes : ∀ b, g (.bytes b) = .bytes b
  list : ∀ xs, g (.list xs) = .list (xs.map g)
  dict : ∀ fields : List (String × Option Cbor), (fields.map Prod.fst).Nodup →
    ∃ d, g (.map (present fields)) = .map d ∧ Shows g fields d

/-- The payload as it was handed over is a rendering of itself. -/
theorem rendering_id : Rendering id where
  int _ := rfl
  bool _ := rfl
  text _ := rfl
  bytes _ := rfl
  list xs := by rw [List.map_id]; rfl
  dict fields h := by
    refine ⟨present fields, rfl, fun key => ?_⟩
    rw [Cbor.lookup_present h, Option.map_id]
    rfl

/-- Canonical form goes through lists item by item. -/
theorem canonList_map (xs : List Cbor) :
    Cbor.canonList xs = xs.map Cbor.canon := by
  induction xs with
  | nil => rfl
  | cons x xs ih => rw [Cbor.canonList, ih, List.map_cons]

theorem rendering_canon : Rendering Cbor.canon where
  int := Cbor.canon_int
  bool := Cbor.canon_bool
  text := Cbor.canon_text
  bytes := Cbor.canon_bytes
  list xs := by rw [Cbor.canon, canonList_map]
  dict fields h := by
    refine ⟨_, by rw [Cbor.canon], fun key => ?_⟩
    have hperm := List.perm_insertionSort (fun a b => Cbor.entryLe a b)
      (Cbor.canonEntries (present fields))
    rw [← Cbor.lookup_perm (Cbor.distinct_present h).canonEntries hperm.symm,
      Cbor.lookup_canonEntries, Cbor.lookup_present h]

section Reading

variable {g : Cbor → Cbor} {fields : List (String × Option Cbor)}
  {d : List (Cbor × Cbor)} {key : String}

/-- A rendered map shows each written field. -/
theorem Rendering.shows (hg : Rendering g)
    (h : g (.map (present fields)) = .map d)
    (hkeys : (fields.map Prod.fst).Nodup) : Shows g fields d := by
  obtain ⟨d', hd', hshows⟩ := hg.dict fields hkeys
  rw [h] at hd'
  cases hd'
  exact hshows

/-- A required entry reads as rendered. -/
theorem Shows.entry {v : Cbor} (h : Shows g fields d)
    (hv : (fields.lookup key).join = some v) :
    entry d key = .ok (g v) := by
  rw [CborObjects.entry, h key, hv]
  rfl

/-- An entry with a default reads as rendered, or as the default. -/
theorem Shows.entryOr (h : Shows g fields d) (default : Cbor) :
    entryOr d key default = ((fields.lookup key).join.map g).getD default := by
  rw [CborObjects.entryOr, h key]

/-- A text that is left out if it is empty. -/
theorem Shows.text {s : String} (h : Shows g fields d) (hg : Rendering g)
    (hv : (fields.lookup key).join = textField s) :
    CborObjects.entryOr d key (.text "") = .text s := by
  rw [h.entryOr, hv, textField]
  by_cases hs : s = ""
  · rw [if_pos hs, hs]
    rfl
  · rw [if_neg hs]
    exact hg.text s

/-- A number that is left out if it is zero. -/
theorem Shows.int {n : Int} (h : Shows g fields d) (hg : Rendering g)
    (hv : (fields.lookup key).join = intField n) :
    CborObjects.entryOr d key (.int 0) = .int n := by
  rw [h.entryOr, hv, intField]
  by_cases hn : n = 0
  · rw [if_pos hn, hn]
    rfl
  · rw [if_neg hn]
    exact hg.int n

/-- What is always written. -/
theorem Shows.some {v default : Cbor} (h : Shows g fields d)
    (hv : (fields.lookup key).join = some v) :
    CborObjects.entryOr d key default = g v := by
  rw [h.entryOr, hv]
  rfl

end Reading

/-! ## The parts -/

section Parts

variable {lib : CborObjects} {g : Cbor → Cbor} {d : List (Cbor × Cbor)}

/-- A media record passes its own checks again. -/
theorem GlyphMedia.make_ok (m : GlyphMedia) : make m.toMediaFields = .ok m := by
  rw [make, postInitOk_of m.valid]
  rfl

theorem GlyphCreator.make_ok (c : GlyphCreator) :
    make c.toCreatorFields = .ok c := by
  rw [make, postInitOk_of c.valid]
  rfl

theorem GlyphRoyalty.make_ok (r : GlyphRoyalty) :
    make r.toRoyaltyFields = .ok r := by
  rw [make, postInitOk_of r.valid]
  rfl

theorem DmintCborPayload.make_ok (p : DmintCborPayload) :
    make p.toDmintPayloadFields = .ok p := by
  rw [make, postInitOk_of p.valid]
  rfl

theorem GlyphMetadata.make_ok (m : GlyphMetadata) :
    make m.toMetadataFields m.distinct = .ok m := by
  rw [make, postInitOk_of m.valid]
  rfl

/-- A check that returned keeps its value. -/
theorem checked_ok {α : Type} {x : Except PyErr α} {a : α} (h : x = .ok a) :
    checked x = .ok a := by
  rw [h]
  rfl

theorem GlyphCreator.fromCborDict_toCborDict (hg : Rendering g)
    (c : GlyphCreator) (h : g c.toCborDict = .map d) :
    fromCborDict lib d = .ok c := by
  have hkeys : ["pubkey", "sig", "algo"].Nodup := by decide
  have hs := hg.shows h hkeys
  have hpubkey : entryOr d "pubkey" (.text "") = .text c.pubkey :=
    (hs.some rfl).trans (hg.text _)
  have hsig : entryOr d "sig" (.text "") = .text c.sig := hs.text hg rfl
  have halgo : entryOr d "algo" (.text creatorAlgo) = .text c.algo := by
    rw [hs.entryOr]
    show ((if c.algo = creatorAlgo then none
      else some (Cbor.text c.algo)).map g).getD (.text creatorAlgo) = _
    by_cases ha : c.algo = creatorAlgo
    · rw [if_pos ha, ha]
      rfl
    · rw [if_neg ha]
      exact hg.text _
  rw [fromCborDict, hpubkey, hsig, halgo]
  exact checked_ok c.make_ok

theorem readSplit_splitDict (hg : Rendering g) (split : String × Int) :
    readSplit lib (g (splitDict split)) = .ok (some split) := by
  have hkeys : ["address", "bps"].Nodup := by decide
  obtain ⟨d, hd, hs⟩ := hg.dict [("address", some (.text split.1)),
    ("bps", some (.int split.2))] hkeys
  have hsplit : g (splitDict split) = .map d := hd
  have haddress : entry d "address" = .ok (.text split.1) :=
    (hs.entry rfl).trans (by rw [hg.text])
  have hbps : entry d "bps" = .ok (.int split.2) :=
    (hs.entry rfl).trans (by rw [hg.int])
  rw [hsplit, readSplit, haddress, hbps]
  rfl

/-- A royalty reads back, splits and all. -/
theorem GlyphRoyalty.fromCborDict_toCborDict (hg : Rendering g)
    (r : GlyphRoyalty) (h : g r.toCborDict = .map d) :
    fromCborDict lib d = .ok r := by
  have hkeys : ["enforced", "bps", "address", "minimum",
      "splits"].Nodup := by decide
  have hs := hg.shows h hkeys
  have hbps : entry d "bps" = .ok (.int r.bps) :=
    (hs.entry rfl).trans (by rw [hg.int])
  have haddress : entry d "address" = .ok (.text r.address) :=
    (hs.entry rfl).trans (by rw [hg.text])
  have henforced : entryOr d "enforced" (.bool false) = .bool r.enforced :=
    (hs.some rfl).trans (hg.bool _)
  have hminimum : entryOr d "minimum" (.int 0) = .int r.minimum := hs.int hg rfl
  have hsplits : entryOr d "splits" (.list []) =
      .list ((r.splits.map splitDict).map g) := by
    rw [hs.entryOr]
    show ((if r.splits = [] then none
      else some (Cbor.list (r.splits.map splitDict))).map g).getD (.list []) = _
    by_cases hnil : r.splits = []
    · rw [if_pos hnil, hnil]
      rfl
    · rw [if_neg hnil]
      exact hg.list _
  have hread : ((r.splits.map splitDict).map g).mapM (readSplit lib) =
      .ok (r.splits.map some) := by
    rw [List.map_map]
    exact mapM_map_ok _ fun split _ => readSplit_splitDict hg split
  have hkeep : (r.splits.map some).filterMap id = r.splits := by
    rw [List.filterMap_map]
    exact List.filterMap_some
  rw [fromCborDict, hsplits, CborObjects.items]
  show (((r.splits.map splitDict).map g).mapM (readSplit lib) >>= _) = _
  rw [hread, hbps, haddress, henforced, hminimum]
  show checked (make ⟨r.bps, r.address, r.enforced, r.minimum,
    (r.splits.map some).filterMap id⟩) = _
  rw [hkeep]
  exact checked_ok r.make_ok

/-- An optional flag reads back. -/
theorem optBool_written {fields : List (String × Option Cbor)} {key : String}
    {b : Option Bool} (hs : Shows g fields d) (hg : Rendering g)
    (hv : (fields.lookup key).join = b.map .bool) : optBool d key = b := by
  rw [optBool, hs.entryOr, hv]
  cases b with
  | none => rfl
  | some b =>
    have hentry : (((some b).map Cbor.bool).map g).getD .none =
        .bool b := hg.bool b
    rw [hentry]
    rfl

theorem GlyphPolicy.fromCborDict_entries (hg : Rendering g) (p : GlyphPolicy)
    (h : g (.map p.entries) = .map d) : fromCborDict d = p := by
  have hkeys : ["renderable", "executable", "nsfw",
      "transferable"].Nodup := by decide
  have hs := hg.shows h hkeys
  rw [fromCborDict, optBool_written hs hg (b := p.renderable) rfl,
    optBool_written hs hg (b := p.executable) rfl, optBool_written hs hg
    (b := p.nsfw) rfl, optBool_written hs hg (b := p.transferable) rfl]

theorem GlyphRights.fromCborDict_entries (hg : Rendering g) (r : GlyphRights)
    (h : g (.map r.entries) = .map d) : fromCborDict lib d = .ok r := by
  have hkeys : ["license", "terms", "attribution"].Nodup := by decide
  have hs := hg.shows h hkeys
  have hlicense : entryOr d "license" (.text "") = .text r.license :=
    hs.text hg rfl
  have hterms : entryOr d "terms" (.text "") = .text r.terms := hs.text hg rfl
  have hattribution : entryOr d "attribution" (.text "") =
      .text r.attribution := hs.text hg rfl
  rw [fromCborDict, hlicense, hterms, hattribution]
  rfl

/-- What a deploy payload is checked for. -/
theorem DmintPayloadFields.postInit_ok {p : DmintPayloadFields} :
    p.postInit = .ok () ↔
    1 ≤ p.numContracts ∧ 1 ≤ p.maxHeight ∧ 0 ≤ p.reward ∧ 0 ≤ p.premine ∧
    1 ≤ p.diff ∧ 0 ≤ p.asymptote ∧
      0 ≤ p.epochLength ∧ 0 ≤ p.maxAdjustment := by
  simp only [postInit, refuseIf_bind_ok, refuseIf_ok, Int.not_lt]

/-- What is read of a payload: of a FIXED one the DAA fields are the
defaults. -/
def DmintPayloadFields.readBack (p : DmintPayloadFields) : DmintPayloadFields :=
  if p.daaMode = .fixed then
    { p with targetBlockTime := 60, halfLife := 0, windowSize := 0, asymptote := 0, epochLength := 0, maxAdjustment := 0,
             schedule := [] }
  else p

def DmintCborPayload.readBack (p : DmintCborPayload) : DmintCborPayload where
  toDmintPayloadFields := p.toDmintPayloadFields.readBack
  valid := by
    have hvalid := p.valid
    rw [DmintPayloadFields.postInit_ok] at hvalid ⊢
    rw [DmintPayloadFields.readBack]
    split
    · exact ⟨hvalid.1, hvalid.2.1, hvalid.2.2.1, hvalid.2.2.2.1, hvalid.2.2.2.2.1, Int.le_refl 0, Int.le_refl 0,
        Int.le_refl 0⟩
    · exact hvalid

/-- The DAA fields, as they are read. -/
def DmintPayloadFields.daa (p : DmintPayloadFields) : DaaFields :=
  ⟨p.daaMode, p.targetBlockTime, p.halfLife, p.windowSize, p.asymptote,
    p.epochLength, p.maxAdjustment, p.schedule⟩

/-- A schedule entry reads back. -/
theorem readScheduleEntry_scheduleDict (hg : Rendering g) (e : Int × Int) :
    readScheduleEntry lib (g (scheduleDict e)) = .ok e := by
  have hkeys : ["height", "difficulty"].Nodup := by decide
  obtain ⟨d, hd, hs⟩ := hg.dict [("height", some (.int e.1)),
    ("difficulty", some (.int e.2))] hkeys
  have hentry : g (scheduleDict e) = .map d := hd
  have hheight : entry d "height" = .ok (.int e.1) :=
    (hs.entry rfl).trans (by rw [hg.int])
  have hdifficulty : entry d "difficulty" = .ok (.int e.2) :=
    (hs.entry rfl).trans (by rw [hg.int])
  rw [hentry, readScheduleEntry, CborObjects.item, CborObjects.item,
    hheight, hdifficulty]
  rfl

theorem readSchedule_written (hg : Rendering g) (schedule : List (Int × Int))
    (hnil : schedule ≠ []) :
    readSchedule lib (g (.list (schedule.map scheduleDict))) =
      .ok schedule := by
  have htrue : (g (.list (schedule.map scheduleDict))).truthy = true := by
    rw [hg.list]
    cases schedule with
    | nil => exact absurd rfl hnil
    | cons e schedule => rfl
  have hread : ((schedule.map scheduleDict).map g).mapM
      (readScheduleEntry lib) = .ok (schedule.map id) := by
    rw [List.map_map]
    exact mapM_map_ok _ fun e _ => readScheduleEntry_scheduleDict hg e
  rw [readSchedule, if_pos htrue, hg.list, CborObjects.items]
  show ((schedule.map scheduleDict).map g).mapM (readScheduleEntry lib) = _
  rw [hread, List.map_id]

/-- An int of the `daa` dict. -/
theorem readDaaInt_of {key : String} {default n : Int}
    (h : entryOr d key (.int default) = .int n) :
    readDaaInt lib (.map d) key default = .ok n := by
  rw [readDaaInt, CborObjects.get, h]
  rfl

theorem DaaFields.read_daaDict (hg : Rendering g) (p : DmintCborPayload) :
    DaaFields.read lib (g p.daaDict) = .ok p.daa := by
  have hkeys : ["mode", "targetBlockTime", "halfLife",
      "asymptote", "windowSize", "epochLength", "maxAdjustment",
      "schedule"].Nodup := by decide
  obtain ⟨d, hdict, hs⟩ : ∃ d, g p.daaDict = .map d ∧ Shows g _ d :=
    hg.dict _ (by exact hkeys)
  have hmode : readDaaInt lib (.map d) "mode" 0 = .ok p.daaMode.value :=
    readDaaInt_of ((hs.some rfl).trans (hg.int _))
  have htime : readDaaInt lib (.map d) "targetBlockTime" 60 =
      .ok p.targetBlockTime :=
    readDaaInt_of ((hs.some rfl).trans (hg.int _))
  have hhalf : readDaaInt lib (.map d) "halfLife" 0 = .ok p.halfLife :=
    readDaaInt_of (hs.int hg rfl)
  have hwindow : readDaaInt lib (.map d) "windowSize" 0 = .ok p.windowSize :=
    readDaaInt_of (hs.int hg rfl)
  have hasymptote : readDaaInt lib (.map d) "asymptote" 0 = .ok p.asymptote :=
    readDaaInt_of (hs.int hg rfl)
  have hepoch : readDaaInt lib (.map d) "epochLength" 0 = .ok p.epochLength :=
    readDaaInt_of (hs.int hg rfl)
  have hadjust : readDaaInt lib (.map d) "maxAdjustment" 0 =
      .ok p.maxAdjustment := readDaaInt_of (hs.int hg rfl)
  have hschedule : readSchedule lib (entryOr d "schedule" .none) =
      .ok p.schedule := by
    rw [hs.entryOr]
    show readSchedule lib (((if p.schedule = [] then none else
      some (Cbor.list (p.schedule.map scheduleDict))).map g).getD .none) = _
    by_cases hnil : p.schedule = []
    · rw [if_pos hnil, hnil]
      rfl
    · rw [if_neg hnil]
      exact readSchedule_written hg _ hnil
  rw [hdict, DaaFields.read, hmode]
  show (member "DaaMode" p.daaMode.value (DaaMode.ofValue p.daaMode.value) >>=
    _) = _
  rw [DaaMode.ofValue_value, htime, hhalf, hwindow, hasymptote, hepoch, hadjust]
  show (readSchedule lib (entryOr d "schedule" .none) >>= _) = _
  rw [hschedule]
  rfl

/-- **A dMint object reads back**, of a FIXED contract with the default DAA
fields. -/
theorem DmintCborPayload.fromCborDict_toCborDict (hg : Rendering g)
    (p : DmintCborPayload)
    (h : g p.toCborDict = .map d) : fromCborDict lib d = .ok p.readBack := by
  have hkeys : ["algo", "numContracts", "maxHeight", "reward", "premine",
      "diff", "daa"].Nodup := by decide
  have hs := hg.shows h hkeys
  have halgo : entry d "algo" = .ok (.int p.algo.value) :=
    (hs.entry rfl).trans (by rw [hg.int])
  have hcontracts : entryOr d "numContracts" (.int 1) = .int p.numContracts :=
    (hs.some rfl).trans (hg.int _)
  have hheight : entry d "maxHeight" = .ok (.int p.maxHeight) :=
    (hs.entry rfl).trans (by rw [hg.int])
  have hreward : entry d "reward" = .ok (.int p.reward) :=
    (hs.entry rfl).trans (by rw [hg.int])
  have hpremine : entryOr d "premine" (.int 0) = .int p.premine :=
    (hs.some rfl).trans (hg.int _)
  have hdiff : entry d "diff" = .ok (.int p.diff) :=
    (hs.entry rfl).trans (by rw [hg.int])
  have hdaa : readDaa lib d = .ok p.readBack.daa := by
    have hlookup : lookup "daa" d = (if p.daaMode = .fixed then none
        else some p.daaDict).map g := hs "daa"
    have hread : p.readBack.daa = p.toDmintPayloadFields.readBack.daa := rfl
    rw [readDaa, hlookup, hread, DmintPayloadFields.readBack]
    by_cases hfixed : p.daaMode = .fixed
    · rw [if_pos hfixed, if_pos hfixed]
      show Except.ok DaaFields.default = Except.ok (DaaFields.mk p.daaMode 60 0 0 0 0 0 [])
      rw [hfixed]
      rfl
    · rw [if_neg hfixed, if_neg hfixed]
      exact DaaFields.read_daaDict hg p
  have hmake : make p.readBack.toDmintPayloadFields = .ok p.readBack :=
    p.readBack.make_ok
  have hkept : p.readBack.algo = p.algo ∧
      p.readBack.numContracts = p.numContracts ∧
      p.readBack.maxHeight = p.maxHeight ∧ p.readBack.reward = p.reward ∧
        p.readBack.premine = p.premine ∧ p.readBack.diff = p.diff := by
    have hread : p.readBack.toDmintPayloadFields =
        p.toDmintPayloadFields.readBack := rfl
    rw [hread, DmintPayloadFields.readBack]
    split <;> exact ⟨rfl, rfl, rfl, rfl, rfl, rfl⟩
  rw [fromCborDict, readAlgo, halgo]
  show ((member "DmintAlgo" p.algo.value
    (DmintAlgo.ofValue p.algo.value)).mapError algoErr >>= _) = _
  rw [DmintAlgo.ofValue_value]
  show (readFields lib p.algo d).mapError fieldErr = _
  rw [readFields, hdaa, hcontracts, hheight, hreward, hpremine, hdiff,
    ← hkept.1, ← hkept.2.1, ← hkept.2.2.1,
    ← hkept.2.2.2.1, ← hkept.2.2.2.2.1, ← hkept.2.2.2.2.2]
  show (checked (make p.readBack.toDmintPayloadFields)).mapError fieldErr = _
  rw [hmake]
  rfl

end Parts

/-! ## Attributes -/

section Attrs

variable {lib : CborObjects} {attrs : List (String × String)}

/-- The attributes with their names in canonical order. -/
def canonAttrs (attrs : List (String × String)) : List (String × String) :=
  attrs.insertionSort fun a b => Cbor.textLe a.1 b.1

/-- Canonical order only moves the attributes. -/
theorem perm_canonAttrs (attrs : List (String × String)) :
    (canonAttrs attrs).Perm attrs :=
  List.perm_insertionSort _ attrs

/-- Text attributes are canonical entries as they stand. -/
theorem canonEntries_attrs (attrs : List (String × String)) :
    Cbor.canonEntries (attrs.map fun e => (.text e.1, .text e.2)) =
      attrs.map fun e => (.text e.1, .text e.2) := by
  induction attrs with
  | nil => rfl
  | cons e attrs ih =>
    rw [List.map_cons, Cbor.canonEntries, ih, Cbor.canon_text]

/-- The attribute map is written in canonical order. -/
theorem canon_attrsDict (attrs : List (String × String)) :
    Cbor.canon (attrsDict attrs) = attrsDict (canonAttrs attrs) := by
  rw [attrsDict, attrsDict, Cbor.canon, canonEntries_attrs, canonAttrs]
  refine congrArg Cbor.map
    (List.map_insertionSort _ _ _ attrs fun a _ b _ => ?_).symm
  exact Iff.rfl

theorem setEntries_new {k v : String} {d : List (String × String)}
    (h : k ∉ d.map Prod.fst) :
    OrderedMap.setEntries k v d = d ++ [(k, v)] := by
  induction d with
  | nil => rfl
  | cons e d ih =>
    have hne : ¬ k = e.1 := fun heq => h (heq ▸ List.mem_cons_self)
    have hrest : k ∉ d.map Prod.fst :=
      fun hmem => h (List.mem_cons_of_mem _ hmem)
    rw [OrderedMap.setEntries, if_neg hne, ih hrest]
    rfl

/-- Reading attributes with new names appends them in order. -/
theorem readAttrs_texts (attrs : List (String × String)) :
    ∀ done : OrderedMap String String,
    ((done.entries ++ attrs).map Prod.fst).Nodup →
    ∃ read, readAttrs lib (attrs.map fun e => (.text e.1,
      .text e.2)) done = .ok read ∧
      read.entries = done.entries ++ attrs := by
  induction attrs with
  | nil =>
    intro done _
    exact ⟨done, rfl, (List.append_nil _).symm⟩
  | cons e attrs ih =>
    intro done hdistinct
    have hnew : e.1 ∉ done.entries.map Prod.fst := by
      intro hmem
      rw [List.map_append, List.nodup_append'] at hdistinct
      exact hdistinct.2.2 hmem List.mem_cons_self
    have hset : (done.set e.1 e.2).entries = done.entries ++ [e] :=
      setEntries_new hnew
    have happend : (done.set e.1 e.2).entries ++ attrs =
        done.entries ++ e :: attrs := by
      rw [hset, List.append_assoc]
      rfl
    obtain ⟨read, hread, hentries⟩ :=
      ih (done.set e.1 e.2) (by rw [happend]; exact hdistinct)
    exact ⟨read, hread, hentries.trans happend⟩

end Attrs

/-! ## The payload -/

/-- `x` returns `a` where the condition holds, and is refused where it does
not. -/
def Gated {α : Type} (c : Prop) (x : Except DecodeErr α) (a : α) : Prop :=
  (c → x = .ok a) ∧ (¬ c → ∃ msg, x = .error (.validation msg))

section Gates

variable {α β : Type} {c c' : Prop} {x : Except DecodeErr α}
  {f : α → Except DecodeErr β} {a : α} {b : β}

/-- What simply returns is gated by nothing. -/
theorem Gated.of_ok (h : x = .ok a) : Gated True x a :=
  ⟨fun _ => h, fun hno => absurd trivial hno⟩

/-- Two gated steps are gated by both conditions. -/
theorem Gated.bind (hx : Gated c x a) (hf : Gated c' (f a) b) : Gated (c ∧ c')
    (x >>= f) b := by
  constructor
  · rintro ⟨hc, hc'⟩
    rw [hx.1 hc]
    exact hf.1 hc'
  · intro hno
    by_cases hc : c
    · rw [hx.1 hc]
      exact hf.2 fun hc' => hno ⟨hc, hc'⟩
    · obtain ⟨msg, hmsg⟩ := hx.2 hc
      exact ⟨msg, by rw [hmsg]; rfl⟩

/-- A step that is never refused. -/
theorem Gated.next (hx : x = .ok a) (hf : Gated c (f a) b) :
    Gated c (x >>= f) b := by
  rw [hx]
  exact hf

/-- The gate may be said in other words. -/
theorem Gated.congr (h : Gated c x a) (hc : c ↔ c') : Gated c' x a :=
  ⟨fun hc' => h.1 (hc.mpr hc'), fun hno => h.2 fun hyes => hno (hc.mp hyes)⟩

/-- A rejection is gated by its condition failing. -/
theorem gated_rejectIf {cond : Prop} [Decidable cond] {msg : String} :
    Gated (¬ cond) (rejectIf cond msg) () := by
  constructor
  · intro h
    exact if_neg h
  · intro h
    exact ⟨msg, if_pos (Decidable.not_not.mp h)⟩

end Gates

/-- The limits of the decoder that the constructor does not share. -/
structure MetadataFields.Readable (m : MetadataFields) : Prop where
  name : m.name.length ≤ 64
  ticker : m.ticker.length ≤ 16
  description : m.description.length ≤ 1000
  tokenType : m.tokenType.length ≤ 64
  attrs : m.attrs.length ≤ maxAttrsCount
  loc : m.loc.length ≤ 512
  locHash : m.locHash.length ≤ 128
  imageUrl : m.imageUrl.length ≤ 512
  imageIpfs : m.imageIpfs.length ≤ 128
  created : m.created.length ≤ 64
  commitOutpoint : m.commitOutpoint.length ≤ 128

/-- What is read of metadata. -/
def MetadataFields.readBack (m : MetadataFields) : MetadataFields :=
  { m with
    attrs := canonAttrs m.attrs
    dmintParams := m.dmintParams.map .readBack
    policy := m.policy.filter fun p => !p.entries.isEmpty
    rights := m.rights.filter fun r => !r.entries.isEmpty }

def GlyphMetadata.readBack (m : GlyphMetadata) : GlyphMetadata where
  toMetadataFields := m.toMetadataFields.readBack
  distinct :=
    (((perm_canonAttrs m.attrs).map Prod.fst).nodup_iff).mpr m.distinct
  valid := m.valid

section Payload

variable {lib : CborObjects} {m : GlyphMetadata} {d : List (Cbor × Cbor)}

/-- The fields of the dict that is encoded. -/
def GlyphMetadata.fields (m : GlyphMetadata) : List (String × Option Cbor) :=
  m.fieldsBefore ++ ("creator",
    m.creator.map GlyphCreator.toCborDict) :: m.fieldsAfter

/-- A dict is read as a dict. -/
theorem canon_isMap (entries : List (Cbor × Cbor)) :
    ∃ d, Cbor.canon (.map entries) = .map d :=
  ⟨_, by rw [Cbor.canon]⟩

/-- A text field is gated by its length. -/
theorem cborStr_text {s key : String} {maxLen : Nat}
    (h : entryOr d key (.text "") = .text s) :
    Gated (s.length ≤ maxLen) (cborStr d key maxLen) s := by
  have hread : cborStr d key maxLen = if s = "" then .ok ""
      else if maxLen < s.length then
      .error (.validation ("CBOR field " ++ reprStr key ++ " too long: " ++
        toString s.length ++ " > " ++ toString maxLen))
      else .ok s := by
    rw [cborStr, h]
  rw [hread]
  by_cases hs : s = ""
  · rw [if_pos hs, hs]
    exact (Gated.of_ok rfl).congr ⟨fun _ => Nat.zero_le _, fun _ => trivial⟩
  · rw [if_neg hs]
    constructor
    · intro hlen
      exact if_neg (Nat.not_lt.mpr hlen)
    · intro hlen
      exact ⟨_, if_pos (Nat.not_le.mp hlen)⟩

variable (hs : Shows Cbor.canon m.fields d)
include hs

theorem decodeP_written : decodeP d = .ok (m.protocol.map .int) := by
  have hlookup : lookup "p" d =
      some (Cbor.canon (.list (m.protocol.map .int))) := hs "p"
  rw [decodeP, hlookup, Cbor.canon, canonList_ints]

theorem decodeMain_written : decodeMain lib d = .ok m.main := by
  have hlookup : lookup "main" d =
      (m.main.map GlyphMedia.toCborDict).map Cbor.canon := hs "main"
  rw [decodeMain, hlookup]
  cases hmain : m.main with
  | none => rfl
  | some media =>
    have hkeys : ["t", "b"].Nodup := by decide
    obtain ⟨dm, hdm, hshows⟩ : ∃ dm, Cbor.canon media.toCborDict = .map dm ∧
        Shows Cbor.canon _ dm :=
      rendering_canon.dict [("t", some (.text media.mimeType)),
        ("b", some (.bytes media.data))] hkeys
    have ht : lookup "t" dm = some (.text media.mimeType) :=
      (hshows "t").trans (congrArg some (Cbor.canon_text _))
    have hb : lookup "b" dm = some (.bytes media.data) :=
      (hshows "b").trans (congrArg some (Cbor.canon_bytes _))
    have hmime : ¬ 256 < media.mimeType.length := by
      have hvalid := media.valid
      rw [MediaFields.postInit] at hvalid
      exact (refuseIf_bind_ok.mp (refuseIf_bind_ok.mp hvalid).2).1
    have hentry : ((some media).map GlyphMedia.toCborDict).map Cbor.canon =
        some (.map dm) := congrArg some hdm
    rw [hentry]
    dsimp only
    rw [ht, hb]
    show some <$> (rejectIf (256 < media.mimeType.length) _ >>=
      fun _ => checked (GlyphMedia.make media.toMediaFields)) = _
    rw [rejectIf, if_neg hmime, media.make_ok]
    rfl

theorem decodeVersion_written : decodeVersion lib d = .ok m.v := by
  have hlookup : entryOr d "v" .none =
      ((m.v.map Cbor.int).map Cbor.canon).getD .none := hs.entryOr _
  rw [decodeVersion, hlookup]
  cases m.v with
  | none => rfl
  | some n =>
    have hcanon : ((some n |>.map Cbor.int).map Cbor.canon).getD .none =
        .int n := Cbor.canon_int n
    rw [hcanon]
    rfl

theorem decodeDmint_written :
    decodeDmint lib d = .ok (m.dmintParams.map .readBack) := by
  have hlookup : lookup "dmint" d = (m.dmintParams.map
      DmintCborPayload.toCborDict).map Cbor.canon := hs "dmint"
  rw [decodeDmint, hlookup]
  cases m.dmintParams with
  | none => rfl
  | some p =>
    obtain ⟨dm, hdm⟩ : ∃ dm, Cbor.canon p.toCborDict = .map dm := canon_isMap _
    have hentry : ((some p).map DmintCborPayload.toCborDict).map Cbor.canon =
        some (.map dm) := congrArg some hdm
    rw [hentry]
    dsimp only
    rw [p.fromCborDict_toCborDict rendering_canon hdm]
    rfl

theorem decodeCreator_written : decodeCreator lib d = .ok m.creator := by
  have hlookup : lookup "creator" d =
      (m.creator.map GlyphCreator.toCborDict).map Cbor.canon := hs "creator"
  rw [decodeCreator, hlookup]
  cases m.creator with
  | none => rfl
  | some c =>
    obtain ⟨dc, hdc⟩ : ∃ dc, Cbor.canon c.toCborDict = .map dc := canon_isMap _
    show ignoreMalformed (readCreator lib (Cbor.canon c.toCborDict)) = _
    rw [hdc, readCreator, c.fromCborDict_toCborDict rendering_canon hdc]
    rfl

omit hs in
/-- A part that was written is read by its reader. -/
theorem decodePart_some {α : Type}
    {read : List (Cbor × Cbor) → Except DecodeErr α} {key : String} {x : Cbor}
    {part : List (Cbor × Cbor)} {a : α} (hlookup : lookup key d = some x)
    (hx : x = .map part) (hread : read part = .ok a) :
    decodePart key read d = .ok (some a) := by
  rw [decodePart, hlookup, hx]
  show ignoreMalformed (read part) = _
  rw [hread]
  rfl

omit hs in
/-- A part that was left out stays out. -/
theorem decodePart_none {α : Type}
    {read : List (Cbor × Cbor) → Except DecodeErr α} {key : String}
    (hlookup : lookup key d = none) : decodePart key read d = .ok none := by
  rw [decodePart, hlookup]

theorem decodeRoyalty_written :
    decodePart "royalty" (GlyphRoyalty.fromCborDict lib) d = .ok m.royalty := by
  have hlookup : lookup "royalty" d =
      (m.royalty.map GlyphRoyalty.toCborDict).map Cbor.canon := hs "royalty"
  cases hr : m.royalty with
  | none =>
    rw [hr] at hlookup
    exact decodePart_none hlookup
  | some r =>
    rw [hr] at hlookup
    obtain ⟨dr, hdr⟩ : ∃ dr, Cbor.canon r.toCborDict = .map dr := canon_isMap _
    exact decodePart_some hlookup hdr
      (r.fromCborDict_toCborDict rendering_canon hdr)

/-- A policy decodes unless it said nothing. -/
theorem decodePolicy_written :
    decodePart "policy" (fun part => .ok (GlyphPolicy.fromCborDict part)) d =
    .ok (m.policy.filter fun p => !p.entries.isEmpty) := by
  have hlookup : lookup "policy" d =
      (m.policy.bind fun p => dictField p.entries).map Cbor.canon := hs "policy"
  cases hp : m.policy with
  | none =>
    rw [hp] at hlookup
    exact decodePart_none hlookup
  | some p =>
    rw [hp, Option.bind_some, dictField] at hlookup
    rw [Option.filter_some]
    by_cases hempty : p.entries.isEmpty = true
    · rw [if_pos hempty] at hlookup
      rw [hempty]
      exact decodePart_none hlookup
    · rw [if_neg hempty] at hlookup
      rw [Bool.not_eq_true _ |>.mp hempty]
      obtain ⟨dp, hdp⟩ := canon_isMap p.entries
      exact decodePart_some hlookup hdp
        (congrArg Except.ok (p.fromCborDict_entries rendering_canon hdp))

theorem decodeRights_written :
    decodePart "rights" (GlyphRights.fromCborDict lib) d =
    .ok (m.rights.filter fun r => !r.entries.isEmpty) := by
  have hlookup : lookup "rights" d =
      (m.rights.bind fun r => dictField r.entries).map Cbor.canon := hs "rights"
  cases hr : m.rights with
  | none =>
    rw [hr] at hlookup
    exact decodePart_none hlookup
  | some r =>
    rw [hr, Option.bind_some, dictField] at hlookup
    rw [Option.filter_some]
    by_cases hempty : r.entries.isEmpty = true
    · rw [if_pos hempty] at hlookup
      rw [hempty]
      exact decodePart_none hlookup
    · rw [if_neg hempty] at hlookup
      rw [Bool.not_eq_true _ |>.mp hempty]
      obtain ⟨dr, hdr⟩ := canon_isMap r.entries
      exact decodePart_some hlookup hdr
        (r.fromCborDict_entries rendering_canon hdr)

/-- The attributes, if they are not too many. -/
theorem decodeAttrs_written :
    ∃ attrs : OrderedMap String String, attrs.entries = canonAttrs m.attrs ∧
    Gated (m.attrs.length ≤ maxAttrsCount)
      (decodeAttrs lib (entryOr d "attrs" (.map []))) attrs := by
  have hdistinct : ((canonAttrs m.attrs).map Prod.fst).Nodup :=
    m.readBack.distinct
  obtain ⟨read, hread, hentries⟩ :=
    @readAttrs_texts lib (canonAttrs m.attrs) .empty hdistinct
  have hlookup : entryOr d "attrs" (.map []) =
      attrsDict (canonAttrs m.attrs) := by
    rw [hs.entryOr]
    show ((if m.attrs = [] then none
      else some (attrsDict m.attrs)).map Cbor.canon).getD (.map []) = _
    by_cases hnil : m.attrs = []
    · rw [if_pos hnil, hnil]
      rfl
    · rw [if_neg hnil]
      exact canon_attrsDict _
  refine ⟨read, hentries, ?_⟩
  rw [hlookup, attrsDict, decodeAttrs, List.length_map,
    (perm_canonAttrs m.attrs).length_eq]
  exact (gated_rejectIf.bind (Gated.of_ok hread)).congr ⟨fun h =>
    Nat.not_lt.mp h.1, fun h => ⟨Nat.not_lt.mpr h, trivial⟩⟩

theorem decodeDecimals_written :
    decodeDecimals lib (entryOr d "decimals" (.int 0)) = .ok m.decimals := by
  have hlookup : entryOr d "decimals" (.int 0) = .int m.decimals :=
    hs.int rendering_canon rfl
  rw [hlookup, decodeDecimals]

omit hs in
/-- A check over a list that returned, returned at each item. -/
theorem forM_ok {α : Type} {check : α → Except PyErr Unit} {l : List α}
    (h : l.forM check = .ok ()) :
    ∀ a ∈ l, check a = .ok () := by
  induction l with
  | nil => nofun
  | cons a l ih =>
    obtain ⟨⟨⟩, hhead, htail⟩ :=
      bind_ok.mp (show (check a >>= fun _ => l.forM check) = .ok () from h)
    exact List.forall_mem_cons.mpr ⟨hhead, ih htail⟩

omit hs in
/-- The constructor has checked the protocol list. -/
theorem checkProtocol_of (m : GlyphMetadata) :
    checkProtocol m.protocol = .ok () := by
  have hvalid := m.valid
  rw [MetadataFields.postInit] at hvalid
  obtain ⟨⟨⟩, hprotocol, -⟩ := bind_ok.mp hvalid
  exact hprotocol

omit hs in
/-- The protocol numbers decode. -/
theorem protocolValues_written (m : GlyphMetadata) :
    (m.protocol.map Cbor.int).mapM (protocolValue lib) = .ok m.protocol := by
  have hprotocol := checkProtocol_of m
  rw [checkProtocol] at hprotocol
  obtain ⟨-, hprotocol⟩ := refuseIf_bind_ok.mp hprotocol
  obtain ⟨⟨⟩, hknown, -⟩ := bind_ok.mp hprotocol
  have hread : (m.protocol.map Cbor.int).mapM (protocolValue lib) =
      .ok (m.protocol.map id) :=
    mapM_map_ok _ fun p hp => by
      rw [protocolValue, forM_ok hknown p hp]
      rfl
  rw [hread, List.map_id]

omit hs in
/-- And the image's hash. -/
theorem length_imageSha256 (m : GlyphMetadata) : m.imageSha256.length ≤ 64 := by
  have hvalid := m.valid
  rw [MetadataFields.postInit] at hvalid
  obtain ⟨⟨⟩, -, hvalid⟩ := bind_ok.mp hvalid
  have hsha := refuseIf_ok.mp (refuseIf_bind_ok.mp hvalid).2
  by_cases hnil : m.imageSha256 = ""
  · rw [hnil]
    exact Nat.zero_le _
  · have hhex : isHexOf 64 m.imageSha256.toList = true := by
      rw [← Bool.not_eq_false]
      exact fun hno => hsha ⟨hnil, hno⟩
    rw [isHexOf, Bool.and_eq_true, beq_iff_eq, String.length_toList] at hhex
    exact Nat.le_of_eq hhex.1

omit hs in
/-- Metadata with the same fields is the same metadata. -/
theorem GlyphMetadata.make_of {f : MetadataFields} (hf : f = m.toMetadataFields)
    (h : (f.attrs.map Prod.fst).Nodup) : make f h = .ok m := by
  subst hf
  exact m.make_ok

/-- **The payload**, once it is a dict. -/
theorem decodeDict_written {bytes : Bytes}
    (hload : loadDict lib bytes = .ok d) :
    Gated (bytes.length ≤ maxCborPayloadBytes ∧ m.Readable)
      (decodePayload lib bytes) m.readBack := by
  -- every field is looked up where it was written, or read as its default
  have hname : entryOr d "name" (.text "") = .text m.name :=
    hs.text rendering_canon rfl
  have hticker : entryOr d "ticker" (.text "") = .text m.ticker :=
    hs.text rendering_canon rfl
  have hdesc : entryOr d "desc" (.text "") = .text m.description :=
    hs.text rendering_canon rfl
  have htype : entryOr d "type" (.text "") = .text m.tokenType :=
    hs.text rendering_canon rfl
  have hloc : entryOr d "loc" (.text "") = .text m.loc :=
    hs.text rendering_canon rfl
  have hhash : entryOr d "loc_hash" (.text "") = .text m.locHash :=
    hs.text rendering_canon rfl
  have himage : entryOr d "image" (.text "") = .text m.imageUrl :=
    hs.text rendering_canon rfl
  have hipfs : entryOr d "image_ipfs" (.text "") = .text m.imageIpfs :=
    hs.text rendering_canon rfl
  have hsha : entryOr d "image_sha256" (.text "") = .text m.imageSha256 :=
    hs.text rendering_canon rfl
  have hcreated : entryOr d "created" (.text "") = .text m.created :=
    hs.text rendering_canon rfl
  have houtpoint : entryOr d "commit_outpoint" (.text "") =
      .text m.commitOutpoint := hs.text rendering_canon rfl
  have himageSha := (@cborStr_text d m.imageSha256 "image_sha256" 64 hsha).1
    (length_imageSha256 m)
  obtain ⟨attrs, hentries, hattrs⟩ := @decodeAttrs_written lib m d hs
  have hmake : checked (GlyphMetadata.make
      { m.readBack.toMetadataFields with attrs := attrs.entries } attrs.nodup) =
      .ok m.readBack := by
    refine checked_ok (GlyphMetadata.make_of ?_ _)
    rw [hentries]
    rfl
  have hread : Gated (¬ maxCborPayloadBytes < bytes.length ∧
      m.name.length ≤ 64 ∧ m.ticker.length ≤ 16 ∧ m.description.length ≤ 1000 ∧
      m.tokenType.length ≤ 64 ∧ m.attrs.length ≤ maxAttrsCount ∧
      m.loc.length ≤ 512 ∧ m.locHash.length ≤ 128 ∧
      m.imageUrl.length ≤ 512 ∧ m.imageIpfs.length ≤ 128 ∧
      m.created.length ≤ 64 ∧ m.commitOutpoint.length ≤ 128 ∧
      True) (decodePayload lib bytes) m.readBack := by
    rw [decodePayload]
    refine gated_rejectIf.bind (.next hload
      (.next (decodeP_written hs) (.next (decodeMain_written hs) ?_)))
    refine .next (decodeVersion_written hs)
      (.next (decodeDmint_written hs) (.next (decodeCreator_written hs) ?_))
    refine .next (decodeRoyalty_written hs)
      (.next (decodePolicy_written hs) (.next (decodeRights_written hs) ?_))
    refine (cborStr_text hname).bind
      ((cborStr_text hticker).bind ((cborStr_text hdesc).bind ?_))
    refine (cborStr_text htype).bind
      (hattrs.bind ((cborStr_text hloc).bind ((cborStr_text hhash).bind ?_)))
    refine .next (decodeDecimals_written hs)
      ((cborStr_text himage).bind ((cborStr_text hipfs).bind ?_))
    refine .next himageSha
      ((cborStr_text hcreated).bind ((cborStr_text houtpoint).bind ?_))
    exact .next (protocolValues_written m) (.of_ok hmake)
  refine hread.congr ⟨?_, ?_⟩
  · rintro ⟨hsize, h1, h2, h3, h4, h5, h6, h7, h8, h9, h10, h11, -⟩
    exact ⟨Nat.not_lt.mp hsize, ⟨h1, h2, h3, h4, h5, h6, h7, h8, h9, h10, h11⟩⟩
  · rintro ⟨hsize, h⟩
    exact ⟨Nat.not_lt.mpr hsize, h.name, h.ticker, h.description, h.tokenType,
      h.attrs, h.loc, h.locHash, h.imageUrl, h.imageIpfs, h.created,
      h.commitOutpoint, trivial⟩

omit hs in
/-- The reader gets a map that shows the written fields. -/
theorem loadDict_written (hread : ReadsBack lib.toCbor2 m) :
    ∃ d, Shows Cbor.canon m.fields d ∧
    loadDict lib (encodePayload lib.toCbor2 m).1 = .ok d := by
  obtain ⟨d, hd, hshows⟩ := rendering_canon.dict m.fields (nodup_fields m)
  have hload : lib.loads (encodePayload lib.toCbor2 m).1 = .ok (.map d) :=
    hread.trans (congrArg Except.ok hd)
  refine ⟨d, hshows, ?_⟩
  rw [loadDict, hload]

omit hs in
/-- **What is encoded is decoded**, if it is within the limits of the
decoder. -/
theorem decode_encode (hread : ReadsBack lib.toCbor2 m) :
    Gated ((encodePayload lib.toCbor2 m).1.length ≤
      maxCborPayloadBytes ∧ m.Readable)
      (decodePayload lib (encodePayload lib.toCbor2 m).1) m.readBack := by
  obtain ⟨d, hshows, hload⟩ := loadDict_written hread
  exact decodeDict_written hshows hload

end Payload

/-- **Metadata that can be revealed reads back** just when its texts and its
attributes are within the limits of the decoder, and a dMint object always
does. -/
theorem payload_reads_back (lib : CborObjects) (m : GlyphMetadata)
    (hread : ReadsBack lib.toCbor2 m)
    (hsuffix : ∃ suffix, buildRevealScriptsigSuffix
      (encodePayload lib.toCbor2 m).1 = .ok suffix) :
    (m.Readable →
      decodePayload lib (encodePayload lib.toCbor2 m).1 = .ok m.readBack) ∧
    (¬ m.Readable → ∃ msg, decodePayload lib (encodePayload lib.toCbor2 m).1 =
      .error (.validation msg)) ∧
    ∀ p : DmintCborPayload, ∃ d, p.toCborDict = .map d ∧
    DmintCborPayload.fromCborDict lib d = .ok p.readBack := by
  have hsize : (encodePayload lib.toCbor2 m).1.length ≤ maxCborPayloadBytes :=
    buildRevealScriptsigSuffix_returns.mp hsuffix
  have hdecode := decode_encode hread
  refine ⟨fun h => hdecode.1 ⟨hsize, h⟩,
    fun h => hdecode.2 fun hboth => h hboth.2, fun p => ?_⟩
  obtain ⟨d, hd⟩ : ∃ d, p.toCborDict = .map d := ⟨_, rfl⟩
  exact ⟨d, hd, p.fromCborDict_toCborDict rendering_id hd⟩

/-! ## A token that is read and one that is not -/

/-- A library whose other objects are no numbers, texts or bytes. -/
def plainObjects (lib : Cbor2) : CborObjects where
  toCbor2 := lib
  intOf := fun x => .error (.type ("int() argument must not be '" ++
    x.typeName ++ "'"))
  strOf := fun x => .ok (lib.str x)
  bytesOf := fun x =>
    .error (.type ("cannot convert '" ++ x.typeName ++ "' object to bytes"))
  itemsOf :=
    fun x => .error (.type ("'" ++ x.typeName ++ "' object is not iterable"))
  itemOf := fun x _ =>
    .error (.type ("'" ++ x.typeName ++ "' object is not subscriptable"))
  getOf := fun x _ _ =>
    .error (.other ("'" ++ x.typeName ++ "' object has no attribute 'get'"))

/-- A library that knows what one encoding holds. -/
def knownMetadata (cbor : Bytes) (m : GlyphMetadata) : CborObjects :=
  plainObjects (knownPayload cbor (Cbor.canon (.map m.toCborDict)) "")

/-- The sample library reads back what it wrote. -/
theorem readsBack_known {cbor : Bytes} {m : GlyphMetadata} :
    ReadsBack (knownMetadata cbor m).toCbor2 m := if_pos rfl

/-- The statement at the NFT payload. -/
theorem payload_reads_back_nft :
    decodePayload (knownMetadata nftPayload nftMetadata) nftPayload =
    .ok nftMetadata.readBack := by
  have hsuffix : ∃ suffix, buildRevealScriptsigSuffix nftPayload =
      .ok suffix := ⟨_, rfl⟩
  refine (payload_reads_back (knownMetadata nftPayload nftMetadata) nftMetadata
    readsBack_known hsuffix).1 ?_
  constructor <;> decide

/-- `{"p": [2], "name": "AA...A"}`, with 65 letters. -/
def longNameMetadata : GlyphMetadata :=
  ⟨{ bareFields [2] with name := String.ofList (List.replicate 65 'A') },
    List.nodup_nil, by decide⟩

def longNamePayload : Bytes :=
  [0xA2, 0x61, 0x70, 0x81, 0x02, 0x64, 0x6E, 0x61, 0x6D, 0x65, 0x78, 0x41] ++
    List.replicate 65 0x41

/-- A FIXED contract that says how long a block takes. -/
def timedDmint : DmintCborPayload where
  algo := .sha256d
  numContracts := 1
  maxHeight := 100
  reward := 50
  premine := 0
  diff := 1
  daaMode := .fixed
  targetBlockTime := 120
  halfLife := 0
  windowSize := 0
  asymptote := 0
  epochLength := 0
  maxAdjustment := 0
  schedule := []
  valid := rfl

/-- **A name of 65 letters is not read back**, and a FIXED contract is read with
another block time. -/
theorem long_name_refused :
    ReadsBack (knownMetadata longNamePayload longNameMetadata).toCbor2
      longNameMetadata ∧
    (∃ suffix, buildRevealScriptsigSuffix longNamePayload = .ok suffix) ∧
    (∃ msg, decodePayload (knownMetadata longNamePayload longNameMetadata)
      longNamePayload = .error (.validation msg)) ∧
    ∃ d p, timedDmint.toCborDict = .map d ∧
      DmintCborPayload.fromCborDict (knownMetadata longNamePayload
        longNameMetadata) d = .ok p ∧ p ≠ timedDmint := by
  have hlong : ¬ longNameMetadata.Readable := by
    intro h
    exact absurd h.name (by decide)
  refine ⟨readsBack_known, ⟨_, rfl⟩,
    (@decode_encode _ longNameMetadata readsBack_known).2 fun h => hlong h.2,
    _, timedDmint.readBack, rfl,
      timedDmint.fromCborDict_toCborDict rendering_id rfl, ?_⟩
  intro h
  have htime : (60 : Int) = 120 :=
    congrArg (fun p : DmintCborPayload => p.targetBlockTime) h
  exact absurd htime (by decide)

end Pyrxd.Glyph
