import HerdrWebui.Concurrency.System
import Mathlib.Data.List.Count

/-!
The bridge that shows the images of a terminal. A socket brings scenes, each with the bytes of the
images that are new on this connection. The bytes are decoded one by one, in any order and at any
time; the bitmaps are cached by a string made of the key of the image, as long as a scene has it.
-/

namespace HerdrWebui.Terminal

inductive SurfaceGraphicsTarget where
  | pane (paneId : String)
  | popup (terminalId : String)
  deriving DecidableEq

inductive SurfaceGraphicsSource where
  | terminal (target : SurfaceGraphicsTarget) (imageId : Nat)
  | paneLayer (paneId layerId : String)
  deriving DecidableEq

inductive SurfaceGraphicsFormat where
  | rgb
  | rgba
  | png
  deriving DecidableEq

structure AssetKey where
  source : SurfaceGraphicsSource
  imageWidth : Nat
  imageHeight : Nat
  format : SurfaceGraphicsFormat
  dataLen : Nat
  dataFingerprint : Nat
  deriving DecidableEq

def SurfaceGraphicsFormat.text : SurfaceGraphicsFormat → String
  | .rgb => "Rgb"
  | .rgba => "Rgba"
  | .png => "Png"

/-- The parts that are made of the source. The first part does not tell the sources apart: an
object that is not there has been replaced by an empty one. -/
def SurfaceGraphicsSource.parts (number : Nat → String) : SurfaceGraphicsSource → List String
  | .terminal target imageId =>
    let image := if imageId = 0 then "" else number imageId
    match target with
    | .pane paneId => ["Terminal", "Pane", paneId, image, "", ""]
    | .popup terminalId => ["Terminal", "Popup", terminalId, image, "", ""]
  | .paneLayer paneId layerId => ["Terminal", "", "", "", paneId, layerId]

/-- `number` is how a number is written that was read from JSON, which may not be exact. -/
def assetKeyString (number : Nat → String) (key : AssetKey) : String :=
  "|".intercalate (key.source.parts number ++
    [number key.imageWidth, number key.imageHeight, key.format.text, number key.dataLen,
      number key.dataFingerprint])

/-- Bytes that were sent, and whether a blob can be made of them. -/
structure Asset where
  key : AssetKey
  blob : Bool
  deriving DecidableEq

/-- The places and panes of the images are left out. -/
structure Scene where
  assets : List Asset
  placements : List AssetKey
  retained : List AssetKey
  deriving DecidableEq

def Scene.live (scene : Scene) : List AssetKey := scene.retained ++ scene.placements

def Scene.keys (scene : Scene) : List AssetKey := scene.assets.map (·.key) ++ scene.live

/-- A bitmap, or the decode it will come from. -/
structure Bitmap where
  id : Nat
  key : AssetKey
  deriving DecidableEq

/-- Bytes that came on this connection: for a bitmap that was cached, or with a decode. -/
inductive Arrival where
  | cached
  | decoding (id : Nat)
  deriving DecidableEq

structure Socket where
  id : Nat
  target : String
  alive : Bool
  deriving DecidableEq

/-- The fields from `decodes` on are no part of the bridge: what is being decoded, what was made
and closed, the last scene on the socket, the bytes that came on it for keys that stayed live, and
the keys that were ever named. -/
structure Bridge where
  terminal : Option Nat
  ws : Option Socket
  connectedKey : Option String
  enabled : Bool
  assets : List (String × Bitmap)
  pendingDecodeKeys : List String
  latestScene : Option Scene
  canvas : Option (Option Nat)
  raf : Bool
  reconnectTimer : Option String
  decodes : List Bitmap
  nextSocket : Nat
  nextBitmap : Nat
  made : List Bitmap
  closed : List Bitmap
  received : Option Scene
  arrived : List (AssetKey × Arrival)
  named : List AssetKey
  deriving DecidableEq

/-- How the opening of a socket goes. -/
inductive Opening where
  | noUrl
  | throws
  | socket

inductive BridgeAction where
  | connect (target : Option String) (opening : Opening)
  | dying
  | closed (socket : Nat)
  | timer (opening : Opening)
  | scene (socket : Nat) (scene : Scene)
  | bridgeError (socket : Nat)
  | disconnect
  | setTerminal (terminal : Nat)
  | clearChildren
  | scroll
  | frame
  | decoded (bitmap : Bitmap)
  | decodeFailed (bitmap : Bitmap)

namespace Bridge

def initial : Bridge :=
  ⟨none, none, none, false, [], [], none, none, false, none, [], 0, 0, [], [], none, [], []⟩

/-- The canvas goes, and the scene with it. -/
def teardownCanvas (b : Bridge) : Bridge :=
  { b with raf := false, canvas := none, latestScene := none }

def clearAssets (b : Bridge) : Bridge :=
  { b with
    closed := b.closed ++ b.assets.map (·.2)
    assets := []
    pendingDecodeKeys := [] }

def disconnect (b : Bridge) : Bridge :=
  { b.clearAssets with
    connectedKey := none
    enabled := false
    reconnectTimer := none
    ws := none
    received := none
    arrived := [] }.teardownCanvas

def scheduleReconnect (target : String) (b : Bridge) : Bridge :=
  if b.connectedKey = some target then { b with reconnectTimer := some target } else b

def openSocket (target : String) (opening : Opening) (b : Bridge) : Bridge :=
  match opening with
  | .noUrl => b
  | .throws => b.scheduleReconnect target
  | .socket =>
    { b with
      ws := some ⟨b.nextSocket, target, true⟩
      nextSocket := b.nextSocket + 1
      received := none
      arrived := [] }

def connect (target : Option String) (opening : Opening) (b : Bridge) : Bridge :=
  match target with
  | none => b.disconnect
  | some target =>
    if b.connectedKey = some target then
      if b.ws.any (·.alive) then b
      else if b.reconnectTimer.isSome then b
      else b.scheduleReconnect target
    else
      { b.disconnect with connectedKey := some target, enabled := true }.openSocket target opening

def setTerminal (terminal : Nat) (b : Bridge) : Bridge :=
  if b.terminal = some terminal then b else { b with terminal := some terminal }.teardownCanvas

def scheduleRedraw (b : Bridge) : Bridge :=
  if b.latestScene.isSome then { b with raf := true } else b

/-- A canvas that is no longer where it was is replaced. -/
def ensureCanvas (host : Nat) (b : Bridge) : Bridge :=
  if b.canvas = some (some host) then b
  else if b.canvas.isSome then { b.teardownCanvas with canvas := some (some host) }
  else { b with canvas := some (some host) }

def redraw (b : Bridge) : Bridge :=
  if b.latestScene.isSome && b.enabled then
    match b.terminal with
    | none => b
    | some host => b.ensureCanvas host
  else b

section Scenes

variable (number : Nat → String)

/-- The assets whose bytes are decoded: the first of each key that is not cached. -/
def newAssets (cached : List String) : (seen : List String) → List Asset → List Asset
  | _, [] => []
  | seen, asset :: rest =>
    if assetKeyString number asset.key ∈ cached ∨ assetKeyString number asset.key ∈ seen then
      newAssets cached seen rest
    else asset :: newAssets cached (assetKeyString number asset.key :: seen) rest

def startDecode (b : Bridge) (asset : Asset) : Bridge :=
  let key := assetKeyString number asset.key
  if asset.blob then
    { b with
      pendingDecodeKeys := key :: b.pendingDecodeKeys
      decodes := b.decodes ++ [⟨b.nextBitmap, asset.key⟩]
      nextBitmap := b.nextBitmap + 1
      arrived := b.arrived ++ [(asset.key, .decoding b.nextBitmap)] }
  else { b with pendingDecodeKeys := b.pendingDecodeKeys.filter (· ≠ key) }

def liveKeys (scene : Scene) : List String := scene.live.map (assetKeyString number)

/-- The bitmaps that no longer have a place go. -/
def evict (scene : Scene) (b : Bridge) : Bridge :=
  { b with
    assets := b.assets.filter fun entry => entry.1 ∈ liveKeys number scene
    closed := b.closed ++
      (b.assets.filter fun entry => ¬entry.1 ∈ liveKeys number scene).map (·.2)
    arrived := b.arrived.filter fun entry =>
      assetKeyString number entry.1 ∈ liveKeys number scene }

def noteCached (scene : Scene) (b : Bridge) : Bridge :=
  { b with
    arrived := b.arrived ++ (scene.assets.filter fun asset =>
      assetKeyString number asset.key ∈ b.assets.map (·.1)).map fun asset => (asset.key, .cached)
    named := b.named ++ scene.keys }

def ingestScene (scene : Scene) (b : Bridge) : Bridge :=
  let kept := (b.evict number scene).noteCached number scene
  let started := (newAssets number (kept.assets.map (·.1)) [] scene.assets).foldl
    (startDecode number) kept
  { started with
    latestScene := some scene
    received := some scene
    raf := true
    arrived := started.arrived.filter fun entry =>
      assetKeyString number entry.1 ∈ liveKeys number scene }

/-- The keys are looked at when the decode is done: a bitmap that is not awaited is closed. -/
def decoded (bitmap : Bitmap) (b : Bridge) : Bridge :=
  let key := assetKeyString number bitmap.key
  let b := { b with
    decodes := b.decodes.erase bitmap
    made := b.made ++ [bitmap] }
  if b.enabled ∧ key ∈ b.pendingDecodeKeys then
    { b with
      pendingDecodeKeys := b.pendingDecodeKeys.filter (· ≠ key)
      assets := b.assets.filter (fun entry : String × Bitmap => entry.1 ≠ key) ++
        [(key, bitmap)] }.scheduleRedraw
  else { b with closed := b.closed ++ [bitmap] }

def decodeFailed (bitmap : Bitmap) (b : Bridge) : Bridge :=
  { b with
    decodes := b.decodes.erase bitmap
    pendingDecodeKeys :=
      b.pendingDecodeKeys.filter (· ≠ assetKeyString number bitmap.key) }

/-- A message of a socket that was replaced is not looked at. -/
def step (b : Bridge) : BridgeAction → Option Bridge
  | .connect target opening => some (b.connect target opening)
  | .dying => b.ws.map fun ws => { b with ws := some { ws with alive := false } }
  | .closed socket =>
    match b.ws with
    | none => some b
    | some ws =>
      if ws.id = socket then
        some ({ b with ws := none, received := none }.scheduleReconnect ws.target)
      else some b
  | .timer opening =>
    b.reconnectTimer.map fun target =>
      let b := { b with reconnectTimer := none }
      if b.connectedKey = some target then b.openSocket target opening else b
  | .scene socket scene =>
    some (if b.ws.any (·.id = socket) then b.ingestScene number scene else b)
  | .bridgeError socket => some (if b.ws.any (·.id = socket) then b.disconnect else b)
  | .disconnect => some b.disconnect
  | .setTerminal terminal => some (b.setTerminal terminal)
  | .clearChildren => some { b with canvas := b.canvas.map fun _ => none }
  | .scroll => some b.scheduleRedraw
  | .frame => if b.raf then some { b with raf := false }.redraw else none
  | .decoded bitmap => if bitmap ∈ b.decodes then some (b.decoded number bitmap) else none
  | .decodeFailed bitmap =>
    if bitmap ∈ b.decodes then some (b.decodeFailed number bitmap) else none

end Scenes

section Spec

variable (number : Nat → String)

def latestKeys (b : Bridge) : List String := (b.latestScene.map (liveKeys number)).getD []

def Shows (b : Bridge) (key : AssetKey) : Prop :=
  ∃ bitmap, (assetKeyString number key, bitmap) ∈ b.assets ∧ bitmap.key = key

def Decoded (b : Bridge) : Arrival → Prop
  | .cached => True
  | .decoding id => ∃ bitmap ∈ b.made, bitmap.id = id

/-- The latest scene is the last one on the socket. Each bitmap that was made is cached under one
key, which is live, or was closed once. A placement whose bytes arrived on this connection has its
bitmap, if they were decoded and the key stayed live. -/
structure Good (b : Bridge) : Prop where
  latest : ∀ scene, b.received = some scene → b.latestScene = some scene
  cachedOrClosed : ∀ bitmap ∈ b.made,
    ((∃ key ∈ b.latestKeys number, (key, bitmap) ∈ b.assets ∧
        ∀ key', (key', bitmap) ∈ b.assets → key' = key) ∧ bitmap ∉ b.closed) ∨
      ((∀ key, (key, bitmap) ∉ b.assets) ∧ b.closed.count bitmap = 1)
  shown : ∀ scene, b.latestScene = some scene → ∀ key ∈ scene.placements,
    ∀ arrival, (key, arrival) ∈ b.arrived → b.Decoded arrival → b.Shows number key

/-- The canvas is replaced by the next redraw. -/
def CanvasMoved (b : Bridge) : Prop :=
  b.latestScene.isSome ∧ b.enabled ∧ b.terminal.isSome ∧ b.canvas.isSome ∧
    b.canvas ≠ some b.terminal

/-- The steps that keep the overlay right: where the canvas is torn down, no scene was received
and nothing is cached; the keys of a scene are told apart by their strings; a bitmap that is
awaited has a live key, and one that is not is not missed. -/
def StepOk (b : Bridge) : BridgeAction → Prop
  | .setTerminal terminal => b.terminal = some terminal ∨ b.received = none ∧ b.assets = []
  | .frame => ¬b.CanvasMoved ∨ b.received = none ∧ b.assets = []
  | .scene _ scene => ∀ key ∈ b.named ++ scene.keys, ∀ key' ∈ b.named ++ scene.keys,
      assetKeyString number key = assetKeyString number key' → key = key'
  | .decoded bitmap =>
    if b.enabled ∧ assetKeyString number bitmap.key ∈ b.pendingDecodeKeys then
      assetKeyString number bitmap.key ∈ b.latestKeys number
    else ∀ entry ∈ b.arrived, entry.2 = .decoding bitmap.id →
      assetKeyString number entry.1 ∈ b.assets.map (·.1)
  | _ => True

instance (b : Bridge) : Decidable b.CanvasMoved :=
  inferInstanceAs (Decidable (_ ∧ _ ∧ _ ∧ _ ∧ _))

instance (b : Bridge) : DecidablePred (b.StepOk number)
  | .setTerminal _ => inferInstanceAs (Decidable (_ ∨ _))
  | .frame => inferInstanceAs (Decidable (_ ∨ _))
  | .scene _ scene => inferInstanceAs (Decidable (∀ key ∈ b.named ++ scene.keys, _))
  | .decoded _ => inferInstanceAs (Decidable (ite _ _ _))
  | .connect .. | .dying | .closed .. | .timer .. | .bridgeError .. | .disconnect
  | .clearChildren | .scroll | .decodeFailed .. => inferInstanceAs (Decidable True)

end Spec

/-- The cache, what is being decoded, and the bytes that came are in step. -/
structure Invariant (number : Nat → String) (b : Bridge) : Prop where
  keysNodup : (b.assets.map (·.1)).Nodup
  apart : ∀ key ∈ b.assets.map (·.1), key ∉ b.pendingDecodeKeys
  keyed : ∀ entry ∈ b.assets, entry.1 = assetKeyString number entry.2.key
  accounted : (b.assets.map (·.2) ++ b.closed).Perm b.made
  idsNodup : ((b.made ++ b.decodes).map (·.id)).Nodup
  idsBelow : ∀ bitmap ∈ b.made ++ b.decodes, bitmap.id < b.nextBitmap
  live : ∀ entry ∈ b.assets, entry.1 ∈ b.latestKeys number
  latest : ∀ scene, b.received = some scene → b.latestScene = some scene
  assetsNamed : ∀ entry ∈ b.assets, entry.2.key ∈ b.named
  decodesNamed : ∀ bitmap ∈ b.decodes, bitmap.key ∈ b.named
  arrivedNamed : ∀ entry ∈ b.arrived, entry.1 ∈ b.named
  distinct : ∀ key ∈ b.named, ∀ key' ∈ b.named,
    assetKeyString number key = assetKeyString number key' → key = key'
  arrivals : ∀ entry ∈ b.arrived, ∀ id, entry.2 = .decoding id →
    id < b.nextBitmap ∧ ∀ bitmap ∈ b.decodes, bitmap.id = id → bitmap.key = entry.1
  shown : ∀ entry ∈ b.arrived, b.Decoded entry.2 → b.Shows number entry.1

namespace Invariant

variable {number : Nat → String} {b : Bridge}

theorem initial : Invariant number initial := by
  constructor <;> simp [Bridge.initial]

theorem made_nodup (h : Invariant number b) : b.made.Nodup := by
  have hids := h.idsNodup
  rw [List.map_append] at hids
  exact List.Nodup.of_map _ hids.of_append_left

theorem good (h : Invariant number b) : b.Good number := by
  refine ⟨h.latest, fun bitmap hmade => ?_, fun scene _ key _ arrival harrived hdecoded => ?_⟩
  · have hcount : (b.assets.map (·.2) ++ b.closed).count bitmap = 1 := by
      rw [h.accounted.count_eq]
      exact List.count_eq_one_of_mem h.made_nodup hmade
    rw [List.count_append] at hcount
    by_cases hcached : bitmap ∈ b.assets.map (·.2)
    · left
      have hpos := List.count_pos_iff.mpr hcached
      obtain ⟨⟨key, _⟩, hentry, rfl⟩ := List.mem_map.mp hcached
      refine ⟨⟨key, h.live _ hentry, hentry, fun key' hentry' => ?_⟩, ?_⟩
      · exact (h.keyed _ hentry').trans (h.keyed _ hentry).symm
      · apply List.count_eq_zero.mp
        omega
    · right
      refine ⟨fun key hentry => hcached (List.mem_map_of_mem hentry), ?_⟩
      have hzero := List.count_eq_zero.mpr hcached
      omega
  · exact h.shown _ harrived hdecoded

theorem socketGone (h : Invariant number b) : Invariant number { b with received := none } :=
  { h with latest := by simp }

theorem newSocket (h : Invariant number b) :
    Invariant number { b with received := none, arrived := [] } :=
  { h with
    latest := by simp
    arrivedNamed := by simp
    arrivals := by simp
    shown := by simp }

theorem clearAssets (h : Invariant number b) :
    Invariant number
      { b.clearAssets with received := none, arrived := [], latestScene := none } :=
  { h with
    keysNodup := List.nodup_nil
    apart := by simp [Bridge.clearAssets]
    keyed := by simp [Bridge.clearAssets]
    accounted := (List.perm_append_comm.trans h.accounted :)
    live := by simp [Bridge.clearAssets]
    latest := by simp
    assetsNamed := by simp [Bridge.clearAssets]
    arrivedNamed := by simp
    arrivals := by simp
    shown := by simp }

theorem noScene (h : Invariant number b) (hreceived : b.received = none) (hassets : b.assets = []) :
    Invariant number { b with latestScene := none } :=
  { h with
    live := by simp [hassets]
    latest := by simp [hreceived] }

/-- A bitmap that is in the cache under the string of a named key is the bitmap of the key. -/
theorem shows (h : Invariant number b) {key : AssetKey} (hnamed : key ∈ b.named)
    (hmem : assetKeyString number key ∈ b.assets.map (·.1)) : b.Shows number key := by
  obtain ⟨⟨_, bitmap⟩, hentry, rfl⟩ := List.mem_map.mp hmem
  exact ⟨bitmap, hentry, h.distinct _ (h.assetsNamed _ hentry) _ hnamed (h.keyed _ hentry).symm⟩

theorem evict (h : Invariant number b) (scene : Scene) :
    Invariant number (b.evict number scene) :=
  { h with
    keysNodup := h.keysNodup.sublist (List.filter_sublist.map _)
    apart := fun key hkey => h.apart key ((List.filter_sublist.map _).subset hkey)
    keyed := fun entry hentry => h.keyed entry (List.mem_of_mem_filter hentry)
    accounted := by
      have hsplit := (List.filter_append_perm
        (fun entry : String × Bitmap => decide (entry.1 ∈ liveKeys number scene)) b.assets).map
          (·.2)
      rw [List.map_append] at hsplit
      have hclosed := (hsplit.append_right b.closed).trans h.accounted
      refine List.Perm.trans ?_ hclosed
      simp only [Bridge.evict, List.append_assoc, decide_not]
      exact List.perm_append_comm.append_left _
    live := fun entry hentry => h.live entry (List.mem_of_mem_filter hentry)
    assetsNamed := fun entry hentry => h.assetsNamed entry (List.mem_of_mem_filter hentry)
    arrivedNamed := fun entry hentry => h.arrivedNamed entry (List.mem_of_mem_filter hentry)
    arrivals := fun entry hentry => h.arrivals entry (List.mem_of_mem_filter hentry)
    shown := fun entry hentry hdecoded => by
      obtain ⟨harrived, hlive⟩ := List.mem_filter.mp hentry
      obtain ⟨bitmap, hcached, hkey⟩ := h.shown entry harrived hdecoded
      exact ⟨bitmap, List.mem_filter.mpr ⟨hcached, hlive⟩, hkey⟩ }

theorem noteCached (h : Invariant number b) {scene : Scene}
    (hdistinct : ∀ key ∈ b.named ++ scene.keys, ∀ key' ∈ b.named ++ scene.keys,
      assetKeyString number key = assetKeyString number key' → key = key') :
    Invariant number (b.noteCached number scene) := by
  have hnamed : ∀ asset ∈ scene.assets, asset.key ∈ b.named ++ scene.keys := fun asset hasset =>
    List.mem_append_right _ (List.mem_append_left _ (List.mem_map_of_mem hasset))
  have hcached : ∀ entry ∈ (b.noteCached number scene).arrived, entry ∈ b.arrived ∨
      ∃ asset ∈ scene.assets, assetKeyString number asset.key ∈ b.assets.map (·.1) ∧
        entry = (asset.key, .cached) := by
    intro entry hentry
    apply (List.mem_append.mp hentry).imp id
    intro hnew
    obtain ⟨asset, hasset, rfl⟩ := List.mem_map.mp hnew
    obtain ⟨hmem, hhas⟩ := List.mem_filter.mp hasset
    exact ⟨asset, hmem, of_decide_eq_true hhas, rfl⟩
  exact { h with
    assetsNamed := fun entry hentry => List.mem_append_left _ (h.assetsNamed entry hentry)
    decodesNamed := fun bitmap hbitmap => List.mem_append_left _ (h.decodesNamed bitmap hbitmap)
    arrivedNamed := fun entry hentry => by
      rcases hcached entry hentry with hold | ⟨asset, hasset, _, rfl⟩
      · exact List.mem_append_left _ (h.arrivedNamed entry hold)
      · exact hnamed asset hasset
    distinct := hdistinct
    arrivals := fun entry hentry id hid => by
      rcases hcached entry hentry with hold | ⟨asset, _, _, rfl⟩
      · exact h.arrivals entry hold id hid
      · cases hid
    shown := fun entry hentry hdecoded => by
      rcases hcached entry hentry with hold | ⟨asset, hasset, hhas, rfl⟩
      · exact h.shown entry hold hdecoded
      · obtain ⟨⟨_, bitmap⟩, hmem, rfl⟩ := List.mem_map.mp hhas
        exact ⟨bitmap, hmem, hdistinct _ (List.mem_append_left _ (h.assetsNamed _ hmem)) _
          (hnamed asset hasset) (h.keyed _ hmem).symm⟩ }

theorem startDecode (h : Invariant number b) {asset : Asset} (hnamed : asset.key ∈ b.named)
    (hnew : assetKeyString number asset.key ∉ b.assets.map (·.1)) :
    Invariant number (b.startDecode number asset) := by
  unfold Bridge.startDecode
  cases asset.blob with
  | false =>
    exact { h with
      apart := fun key hkey hpending => h.apart key hkey (List.mem_of_mem_filter hpending) }
  | true =>
    have hbelow : ∀ bitmap ∈ b.made ++ b.decodes, bitmap.id ≠ b.nextBitmap := by
      intro bitmap hbitmap
      exact (h.idsBelow bitmap hbitmap).ne
    exact { h with
      apart := fun key hkey hpending => by
        rcases List.mem_cons.mp hpending with rfl | hpending
        · exact hnew hkey
        · exact h.apart key hkey hpending
      idsNodup := by
        simp only [if_true]
        rw [← List.append_assoc, List.map_append, List.nodup_append]
        refine ⟨h.idsNodup, by simp, ?_⟩
        intro id hid id' hid'
        obtain ⟨bitmap, hbitmap, rfl⟩ := List.mem_map.mp hid
        have hlast : id' = b.nextBitmap := by simpa using hid'
        rw [hlast]
        exact hbelow bitmap hbitmap
      idsBelow := fun bitmap hbitmap => by
        simp only [if_true] at hbitmap ⊢
        rw [← List.append_assoc] at hbitmap
        rcases List.mem_append.mp hbitmap with hold | hlast
        · exact (h.idsBelow bitmap hold).trans (Nat.lt_succ_self _)
        · rw [List.mem_singleton.mp hlast]
          exact Nat.lt_succ_self _
      decodesNamed := fun bitmap hbitmap => by
        rcases List.mem_append.mp hbitmap with hold | hlast
        · exact h.decodesNamed bitmap hold
        · rw [List.mem_singleton.mp hlast]
          exact hnamed
      arrivedNamed := fun entry hentry => by
        rcases List.mem_append.mp hentry with hold | hlast
        · exact h.arrivedNamed entry hold
        · rw [List.mem_singleton.mp hlast]
          exact hnamed
      arrivals := fun entry hentry id hid => by
        simp only [if_true] at hentry ⊢
        rcases List.mem_append.mp hentry with hold | hlast
        · obtain ⟨hlt, hkey⟩ := h.arrivals entry hold id hid
          refine ⟨hlt.trans (Nat.lt_succ_self _), fun bitmap hbitmap hbid => ?_⟩
          rcases List.mem_append.mp hbitmap with hdecode | hlast
          · exact hkey bitmap hdecode hbid
          · rw [List.mem_singleton.mp hlast] at hbid
            exact absurd hbid hlt.ne'
        · rw [List.mem_singleton.mp hlast] at hid ⊢
          cases hid
          refine ⟨Nat.lt_succ_self _, fun bitmap hbitmap hbid => ?_⟩
          rcases List.mem_append.mp hbitmap with hdecode | hlast
          · exact absurd hbid (hbelow bitmap (List.mem_append_right _ hdecode))
          · rw [List.mem_singleton.mp hlast]
      shown := fun entry hentry hdecoded => by
        simp only [if_true] at hentry hdecoded ⊢
        rcases List.mem_append.mp hentry with hold | hlast
        · exact h.shown entry hold hdecoded
        · rw [List.mem_singleton.mp hlast] at hdecoded
          obtain ⟨bitmap, hmade, hid⟩ := hdecoded
          exact absurd hid (hbelow bitmap (List.mem_append_left _ hmade)) }

theorem startDecode_assets (number : Nat → String) (b : Bridge) (asset : Asset) :
    (b.startDecode number asset).assets = b.assets ∧
      (b.startDecode number asset).named = b.named := by
  unfold Bridge.startDecode
  split <;> exact ⟨rfl, rfl⟩

theorem startDecodes (h : Invariant number b) (batch : List Asset)
    (hbatch : ∀ asset ∈ batch, asset.key ∈ b.named ∧
      assetKeyString number asset.key ∉ b.assets.map (·.1)) :
    Invariant number (batch.foldl (Bridge.startDecode number) b) ∧
      (batch.foldl (Bridge.startDecode number) b).assets = b.assets := by
  induction batch generalizing b with
  | nil => exact ⟨h, rfl⟩
  | cons asset batch ih =>
    obtain ⟨hnamed, hnew⟩ := hbatch asset List.mem_cons_self
    obtain ⟨hassets, hnames⟩ := startDecode_assets number b asset
    have hrest := ih (h.startDecode hnamed hnew) fun next hnext => by
      rw [hassets, hnames]
      exact hbatch next (List.mem_cons_of_mem asset hnext)
    rw [hassets] at hrest
    exact hrest

theorem mem_newAssets {number : Nat → String} {cached seen : List String} {assets : List Asset}
    {asset : Asset} (h : asset ∈ newAssets number cached seen assets) :
    asset ∈ assets ∧ assetKeyString number asset.key ∉ cached := by
  induction assets generalizing seen with
  | nil => cases h
  | cons first rest ih =>
    rw [newAssets] at h
    split at h
    · exact (ih h).imp (List.mem_cons_of_mem first) id
    · next hnew =>
        rcases List.mem_cons.mp h with rfl | hrest
        · exact ⟨List.mem_cons_self, (not_or.mp hnew).1⟩
        · exact (ih hrest).imp (List.mem_cons_of_mem first) id

theorem ingestScene (h : Invariant number b) {scene : Scene}
    (hdistinct : ∀ key ∈ b.named ++ scene.keys, ∀ key' ∈ b.named ++ scene.keys,
      assetKeyString number key = assetKeyString number key' → key = key') :
    Invariant number (b.ingestScene number scene) := by
  have hkept := (h.evict scene).noteCached hdistinct
  obtain ⟨hstarted, hassets⟩ := hkept.startDecodes
    (newAssets number (((b.evict number scene).noteCached number scene).assets.map (·.1)) []
      scene.assets) fun asset hasset => by
    obtain ⟨hmem, hnew⟩ := mem_newAssets hasset
    exact ⟨List.mem_append_right _ (List.mem_append_left _ (List.mem_map_of_mem hmem)), hnew⟩
  exact { hstarted with
    live := fun entry hentry => by
      have hcached : entry ∈ ((b.evict number scene).noteCached number scene).assets := by
        rw [← hassets]
        exact hentry
      exact of_decide_eq_true (List.mem_filter.mp hcached).2
    latest := fun _ hreceived => hreceived
    arrivedNamed := fun entry hentry => hstarted.arrivedNamed entry (List.mem_of_mem_filter hentry)
    arrivals := fun entry hentry => hstarted.arrivals entry (List.mem_of_mem_filter hentry)
    shown := fun entry hentry => hstarted.shown entry (List.mem_of_mem_filter hentry) }

theorem decode_perm {bitmap : Bitmap} (hmem : bitmap ∈ b.decodes) :
    ((b.made ++ [bitmap]) ++ b.decodes.erase bitmap).Perm (b.made ++ b.decodes) := by
  rw [List.append_assoc]
  exact (List.perm_cons_erase hmem).symm.append_left _

theorem scheduleRedraw (h : Invariant number b) : Invariant number b.scheduleRedraw := by
  unfold Bridge.scheduleRedraw
  split
  · exact { h with }
  · exact h

theorem decoded (h : Invariant number b) {bitmap : Bitmap} (hmem : bitmap ∈ b.decodes)
    (hok : b.StepOk number (.decoded bitmap)) : Invariant number (b.decoded number bitmap) := by
  have hperm := decode_perm hmem
  have hids := (hperm.map (·.id)).nodup_iff.mpr h.idsNodup
  have hbelow : ∀ next ∈ (b.made ++ [bitmap]) ++ b.decodes.erase bitmap,
      next.id < b.nextBitmap := fun next hnext => h.idsBelow next (hperm.subset hnext)
  have hdecodes : ∀ next ∈ b.decodes.erase bitmap, next ∈ b.decodes := fun next hnext =>
    List.mem_of_mem_erase hnext
  have hmade (arrival : Arrival) : { b with made := b.made ++ [bitmap] }.Decoded arrival →
      b.Decoded arrival ∨ arrival = .decoding bitmap.id := by
    intro hdecoded
    cases arrival with
    | cached => exact .inl trivial
    | decoding id =>
      obtain ⟨next, hnext, rfl⟩ := hdecoded
      rcases List.mem_append.mp hnext with hold | hlast
      · exact .inl ⟨next, hold, rfl⟩
      · rw [List.mem_singleton.mp hlast]
        exact .inr rfl
  unfold Bridge.decoded
  by_cases hawaited : b.enabled ∧ assetKeyString number bitmap.key ∈ b.pendingDecodeKeys
  · have hlive : assetKeyString number bitmap.key ∈ b.latestKeys number := by
      simpa only [StepOk, if_pos hawaited] using hok
    have hfree : assetKeyString number bitmap.key ∉ b.assets.map (·.1) := fun hhas =>
      h.apart _ hhas hawaited.2
    have hfilter : b.assets.filter (fun entry : String × Bitmap =>
        entry.1 ≠ assetKeyString number bitmap.key) = b.assets := by
      apply List.filter_eq_self.mpr
      intro entry hentry
      apply decide_eq_true
      rintro heq
      exact hfree (heq ▸ List.mem_map_of_mem hentry)
    simp only [if_pos hawaited]
    rw [hfilter]
    apply scheduleRedraw
    exact { h with
      keysNodup := by
        rw [List.map_append, List.nodup_append]
        refine ⟨h.keysNodup, by simp, fun key hkey key' hkey' => ?_⟩
        rintro rfl
        rw [List.mem_singleton.mp hkey'] at hkey
        exact hfree hkey
      apart := fun key hkey hpending => by
        obtain ⟨hpending, hother⟩ := List.mem_filter.mp hpending
        rw [List.map_append] at hkey
        rcases List.mem_append.mp hkey with hold | hlast
        · exact h.apart key hold hpending
        · exact of_decide_eq_true hother (List.mem_singleton.mp hlast)
      keyed := fun entry hentry => by
        rcases List.mem_append.mp hentry with hold | hlast
        · exact h.keyed entry hold
        · rw [List.mem_singleton.mp hlast]
      accounted := by
        rw [List.map_append, List.append_assoc]
        have hrest : ([bitmap] ++ b.closed).Perm (b.closed ++ [bitmap]) := List.perm_append_comm
        refine (hrest.append_left _).trans ?_
        rw [← List.append_assoc]
        exact h.accounted.append_right [bitmap]
      idsNodup := hids
      idsBelow := hbelow
      live := fun entry hentry => by
        rcases List.mem_append.mp hentry with hold | hlast
        · exact h.live entry hold
        · rw [List.mem_singleton.mp hlast]
          exact hlive
      assetsNamed := fun entry hentry => by
        rcases List.mem_append.mp hentry with hold | hlast
        · exact h.assetsNamed entry hold
        · rw [List.mem_singleton.mp hlast]
          exact h.decodesNamed bitmap hmem
      decodesNamed := fun next hnext => h.decodesNamed next (hdecodes next hnext)
      arrivals := fun entry hentry id hid =>
        ⟨(h.arrivals entry hentry id hid).1, fun next hnext =>
          (h.arrivals entry hentry id hid).2 next (hdecodes next hnext)⟩
      shown := fun entry hentry hdecoded => by
        rcases hmade entry.2 hdecoded with hold | hnow
        · obtain ⟨cached, hcached, hkey⟩ := h.shown entry hentry hold
          exact ⟨cached, List.mem_append_left _ hcached, hkey⟩
        · have hkey := (h.arrivals entry hentry bitmap.id hnow).2 bitmap hmem rfl
          refine ⟨bitmap, List.mem_append_right _ ?_, hkey⟩
          rw [hkey]
          exact List.mem_singleton_self _ }
  · have hcached : ∀ entry ∈ b.arrived, entry.2 = .decoding bitmap.id →
        assetKeyString number entry.1 ∈ b.assets.map (·.1) := by
      simpa only [StepOk, if_neg hawaited] using hok
    simp only [if_neg hawaited]
    exact { h with
      accounted := by
        rw [← List.append_assoc]
        exact h.accounted.append_right [bitmap]
      idsNodup := hids
      idsBelow := hbelow
      decodesNamed := fun next hnext => h.decodesNamed next (hdecodes next hnext)
      arrivals := fun entry hentry id hid =>
        ⟨(h.arrivals entry hentry id hid).1, fun next hnext =>
          (h.arrivals entry hentry id hid).2 next (hdecodes next hnext)⟩
      shown := fun entry hentry hdecoded => by
        rcases hmade entry.2 hdecoded with hold | hnow
        · exact h.shown entry hentry hold
        · exact h.shows (h.arrivedNamed entry hentry) (hcached entry hentry hnow) }

theorem decodeFailed (h : Invariant number b) (bitmap : Bitmap) :
    Invariant number (b.decodeFailed number bitmap) :=
  { h with
    apart := fun key hkey hpending => h.apart key hkey (List.mem_of_mem_filter hpending)
    idsNodup := h.idsNodup.sublist ((List.Sublist.append_left List.erase_sublist _).map _)
    idsBelow := fun next hnext =>
      h.idsBelow next ((List.Sublist.append_left List.erase_sublist _).subset hnext)
    decodesNamed := fun next hnext => h.decodesNamed next (List.mem_of_mem_erase hnext)
    arrivals := fun entry hentry id hid =>
      ⟨(h.arrivals entry hentry id hid).1, fun next hnext =>
        (h.arrivals entry hentry id hid).2 next (List.mem_of_mem_erase hnext)⟩ }

theorem disconnect (h : Invariant number b) : Invariant number b.disconnect :=
  { h.clearAssets with }

theorem scheduleReconnect (h : Invariant number b) (target : String) :
    Invariant number (b.scheduleReconnect target) := by
  unfold Bridge.scheduleReconnect
  split
  · exact { h with }
  · exact h

theorem openSocket (h : Invariant number b) (target : String) (opening : Opening) :
    Invariant number (b.openSocket target opening) := by
  cases opening with
  | noUrl => exact h
  | throws => exact h.scheduleReconnect target
  | socket => exact { h.newSocket with }

theorem connect (h : Invariant number b) (target : Option String) (opening : Opening) :
    Invariant number (b.connect target opening) := by
  cases target with
  | none => exact h.disconnect
  | some target =>
    simp only [Bridge.connect]
    split_ifs
    · exact h
    · exact h
    · exact h.scheduleReconnect target
    · have hready : Invariant number
          { b.disconnect with connectedKey := some target, enabled := true } :=
        { h.disconnect with }
      exact hready.openSocket target opening

theorem setTerminal (h : Invariant number b) {terminal : Nat}
    (hok : b.terminal = some terminal ∨ b.received = none ∧ b.assets = []) :
    Invariant number (b.setTerminal terminal) := by
  unfold Bridge.setTerminal
  split
  · exact h
  · next hother =>
      obtain ⟨hreceived, hassets⟩ := hok.resolve_left hother
      exact { h.noScene hreceived hassets with }

theorem redraw (h : Invariant number b)
    (hok : ¬b.CanvasMoved ∨ b.received = none ∧ b.assets = []) : Invariant number b.redraw := by
  unfold Bridge.redraw
  split
  · next hdraws =>
      cases hterminal : b.terminal with
      | none => exact h
      | some host =>
        simp only [Bridge.ensureCanvas]
        split_ifs with hthere hcanvas
        · exact h
        · have hmoved : b.CanvasMoved := by
            obtain ⟨hscene, henabled⟩ := Bool.and_eq_true_iff.mp hdraws
            refine ⟨hscene, henabled, by simp [hterminal], hcanvas, ?_⟩
            rw [hterminal]
            exact hthere
          obtain ⟨hreceived, hassets⟩ := hok.resolve_left (not_not.mpr hmoved)
          exact { h.noScene hreceived hassets with }
        · exact { h with }
  · exact h

theorem step (h : Invariant number b) {action : BridgeAction} {b' : Bridge}
    (hok : b.StepOk number action) (hstep : b.step number action = some b') :
    Invariant number b' := by
  cases action with
  | connect target opening =>
    cases hstep
    exact h.connect target opening
  | dying =>
    obtain ⟨ws, _, rfl⟩ := Option.map_eq_some_iff.mp hstep
    exact { h with }
  | closed socket =>
    simp only [Bridge.step] at hstep
    split at hstep
    · cases hstep
      exact h
    · next ws _ =>
      split at hstep
      · cases hstep
        have hgone : Invariant number { b with ws := none, received := none } :=
          { h.socketGone with }
        exact hgone.scheduleReconnect ws.target
      · cases hstep
        exact h
  | timer opening =>
    obtain ⟨target, _, rfl⟩ := Option.map_eq_some_iff.mp hstep
    have hidle : Invariant number { b with reconnectTimer := none } := { h with }
    dsimp only
    split
    · exact hidle.openSocket target opening
    · exact hidle
  | scene socket scene =>
    cases hstep
    split
    · exact h.ingestScene hok
    · exact h
  | bridgeError socket =>
    cases hstep
    split
    · exact h.disconnect
    · exact h
  | disconnect =>
    cases hstep
    exact h.disconnect
  | setTerminal terminal =>
    cases hstep
    exact h.setTerminal hok
  | clearChildren =>
    cases hstep
    exact { h with }
  | scroll =>
    cases hstep
    exact h.scheduleRedraw
  | frame =>
    simp only [Bridge.step] at hstep
    split at hstep
    · cases hstep
      exact redraw { h with } hok
    · cases hstep
  | decoded bitmap =>
    simp only [Bridge.step] at hstep
    split at hstep
    · next hmem =>
        cases hstep
        exact h.decoded hmem hok
    · cases hstep
  | decodeFailed bitmap =>
    simp only [Bridge.step] at hstep
    split at hstep
    · cases hstep
      exact h.decodeFailed bitmap
    · cases hstep

end Invariant

end Bridge

def bridgeSystem (number : Nat → String) : Concurrency.System Bridge BridgeAction where
  init b := b = Bridge.initial
  step := Bridge.step number

/-- In every run whose steps all meet the condition the overlay is right. -/
theorem bridge_good (number : Nat → String) {b : Bridge}
    (h : (bridgeSystem number).ReachVia (Bridge.StepOk number) b) : b.Good number := by
  have hinvariant : Bridge.Invariant number b := by
    apply h.invariant
    · rintro _ rfl
      exact Bridge.Invariant.initial
    · intro b action b' _ hinvariant hok hstep
      exact hinvariant.step hok hstep
  exact hinvariant.good

def imageKey : AssetKey := ⟨.terminal (.pane "p1") 1, 2, 2, .png, 4, 7⟩

def imageScene : Scene := ⟨[⟨imageKey, true⟩], [imageKey], []⟩

/-- An image that is decoded behind a redraw. -/
theorem bridge_good_image :
    (((bridgeSystem fun n => toString n).runVia (Bridge.StepOk fun n => toString n) Bridge.initial
      [.setTerminal 0, .connect (some "t") .socket, .scene 0 imageScene, .frame,
        .decoded ⟨0, imageKey⟩]).get (by decide +kernel)).Good fun n => toString n :=
  bridge_good _ (Concurrency.System.reachVia_get rfl _)

/-- The element changes and the scene is gone; a scene drops a key that is being decoded, and its
bitmap is cached; a decode fails while there is another one of its key, whose bitmap is closed. -/
theorem bridge_breaks :
    (∃ b, (bridgeSystem fun n => toString n).run Bridge.initial
        [.setTerminal 0, .connect (some "t") .socket, .scene 0 imageScene, .setTerminal 1] =
          some b ∧ ¬b.Good fun n => toString n) ∧
      (∃ b, (bridgeSystem fun n => toString n).run Bridge.initial
        [.setTerminal 0, .connect (some "t") .socket, .scene 0 imageScene, .scene 0 ⟨[], [], []⟩,
          .decoded ⟨0, imageKey⟩] = some b ∧ ¬b.Good fun n => toString n) ∧
      ∃ b, (bridgeSystem fun n => toString n).run Bridge.initial
        [.setTerminal 0, .connect (some "t") .socket, .scene 0 imageScene, .scene 0 ⟨[], [], []⟩,
          .scene 0 imageScene, .decodeFailed ⟨0, imageKey⟩, .decoded ⟨1, imageKey⟩] =
          some b ∧ ¬b.Good fun n => toString n := by
  refine ⟨?_, ?_, ?_⟩
  · have hrun : ((bridgeSystem fun n => toString n).run Bridge.initial
        [.setTerminal 0, .connect (some "t") .socket, .scene 0 imageScene, .setTerminal 1]).map
          (fun b => (b.received, b.latestScene)) = some (some imageScene, none) := by
      decide +kernel
    obtain ⟨b, hb, hfields⟩ := Option.map_eq_some_iff.mp hrun
    obtain ⟨hreceived, hlatest⟩ := Prod.mk.inj hfields
    refine ⟨b, hb, fun hgood => ?_⟩
    rw [hgood.latest imageScene hreceived] at hlatest
    cases hlatest
  · have hrun : ((bridgeSystem fun n => toString n).run Bridge.initial
        [.setTerminal 0, .connect (some "t") .socket, .scene 0 imageScene, .scene 0 ⟨[], [], []⟩,
          .decoded ⟨0, imageKey⟩]).map (fun b => (b.made, b.latestScene, b.assets)) =
          some ([⟨0, imageKey⟩], some ⟨[], [], []⟩,
            [(assetKeyString (fun n => toString n) imageKey, ⟨0, imageKey⟩)]) := by
      decide +kernel
    obtain ⟨b, hb, hfields⟩ := Option.map_eq_some_iff.mp hrun
    simp only [Prod.mk.injEq] at hfields
    obtain ⟨hmade, hlatest, hassets⟩ := hfields
    refine ⟨b, hb, fun hgood => ?_⟩
    rcases hgood.cachedOrClosed ⟨0, imageKey⟩ (by simp [hmade]) with
      ⟨⟨key, hlive, _⟩, _⟩ | ⟨hnot, _⟩
    · simp [Bridge.latestKeys, Bridge.liveKeys, hlatest, Scene.live] at hlive
    · apply hnot
      rw [hassets]
      exact List.mem_singleton_self _
  · have hrun : ((bridgeSystem fun n => toString n).run Bridge.initial
        [.setTerminal 0, .connect (some "t") .socket, .scene 0 imageScene, .scene 0 ⟨[], [], []⟩,
          .scene 0 imageScene, .decodeFailed ⟨0, imageKey⟩, .decoded ⟨1, imageKey⟩]).map
          (fun b => ((b.latestScene, b.assets), b.made, b.arrived)) =
          some ((some imageScene, []), [⟨1, imageKey⟩], [(imageKey, .decoding 1)]) := by
      decide +kernel
    obtain ⟨b, hb, hfields⟩ := Option.map_eq_some_iff.mp hrun
    simp only [Prod.mk.injEq] at hfields
    obtain ⟨⟨hlatest, hassets⟩, hmade, harrived⟩ := hfields
    refine ⟨b, hb, fun hgood => ?_⟩
    have hshown := hgood.shown imageScene hlatest imageKey (List.mem_singleton_self _)
      (.decoding 1) (by simp [harrived]) ⟨⟨1, imageKey⟩, by simp [hmade], rfl⟩
    obtain ⟨bitmap, hcached, _⟩ := hshown
    rw [hassets] at hcached
    cases hcached

end HerdrWebui.Terminal
