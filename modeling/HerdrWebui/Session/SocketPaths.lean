import HerdrWebui.Data.LexicalPath
import HerdrWebui.Data.Utf8

/-!
The sockets of a built-in session: where they are for a name of a session, and for which
names they are its own. The hash is a parameter.
-/

namespace HerdrWebui.Session

def socketPathLimit : Nat := 100

def canonicalSessionName (session : Option String) : String :=
  (((session.map trim).filter (!·.isEmpty)).filter (· != "default")).getD "default"

def isSocketChar (c : Char) : Bool := c.isAlphanum || c == '-' || c == '_' || c == '.'

def safeSocketComponent (value : String) : String :=
  let sanitized := value.toList.map fun c => if isSocketChar c then c else '_'
  if sanitized.isEmpty then "default" else String.ofList sanitized

def hexByte (byte : UInt8) : List Char :=
  [Nat.digitChar (byte.toNat / 16), Nat.digitChar (byte.toNat % 16)]

/-- `sha256` gives the bytes of the digest of some bytes. -/
def shortSocketHash (sha256 : List UInt8 → List UInt8) (value : String) : String :=
  String.ofList (((sha256 (utf8 value.toList)).take 8).flatMap hexByte)

def shortBuiltinSocketDir (hash : String) : String :=
  joinPath "/tmp" ("herdr-webui-builtin-" ++ hash)

def socketPathFits (path : String) : Bool := (utf8 path.toList).length < socketPathLimit

def socketPathPairFits (paths : String × String) : Bool :=
  socketPathFits paths.1 && socketPathFits paths.2

def socketsIn (dir : String) : String × String :=
  (joinPath dir "herdr.sock", joinPath dir "herdr-client.sock")

def sessionComponent (session : Option String) : String :=
  (((session.map trim).filter (!·.isEmpty)).map safeSocketComponent).getD "default"

def sessionDir (settingsDir : String) (session : Option String) : String :=
  joinPath (joinPath settingsDir "builtin") (sessionComponent session)

/-- What is hashed where the paths are too long. -/
def hashedText (settingsDir : String) (session : Option String) : String :=
  sessionDir settingsDir session ++ ":" ++ sessionComponent session

def builtinSocketPathsIn (sha256 : List UInt8 → List UInt8) (settingsDir : String)
    (session : Option String) : String × String :=
  let paths := socketsIn (sessionDir settingsDir session)
  if socketPathPairFits paths then paths
  else socketsIn (shortBuiltinSocketDir (shortSocketHash sha256 (hashedText settingsDir session)))

section Private

variable (sha256 : List UInt8 → List UInt8) (settingsDir : String)

/-- The paths under the settings are short enough. -/
def Fits (session : Option String) : Prop :=
  socketPathPairFits (socketsIn (sessionDir settingsDir session)) = true

/-- Both sockets are in one directory: a child of `builtin`, or the fallback. -/
def InOwnDir (session : Option String) : Prop :=
  ∃ dir : Bool × List String,
    leadsTo (builtinSocketPathsIn sha256 settingsDir session).1 =
      (dir.1, "herdr.sock" :: dir.2) ∧
    leadsTo (builtinSocketPathsIn sha256 settingsDir session).2 =
      (dir.1, "herdr-client.sock" :: dir.2) ∧
    ((∃ name, (name ≠ "" ∧ name ≠ "." ∧ name ≠ "..") ∧
        dir = ((leadsTo settingsDir).1, name :: "builtin" :: (leadsTo settingsDir).2)) ∨
      ¬Fits settingsDir session ∧ dir = leadsTo (shortBuiltinSocketDir
        (shortSocketHash sha256 (hashedText settingsDir session))))

/-- Two sessions of different names have different sockets, each in a directory of its
own. -/
structure PrivateSockets (session session' : Option String) : Prop where
  apart : canonicalSessionName session ≠ canonicalSessionName session' →
    leadsTo (builtinSocketPathsIn sha256 settingsDir session).1 ≠
      leadsTo (builtinSocketPathsIn sha256 settingsDir session').1 ∧
    leadsTo (builtinSocketPathsIn sha256 settingsDir session).2 ≠
      leadsTo (builtinSocketPathsIn sha256 settingsDir session').2
  own : InOwnDir sha256 settingsDir session
  own' : InOwnDir sha256 settingsDir session'

/-- A name that is a directory's own, or that is only hashed. -/
def SafeName (session : Option String) : Prop :=
  sessionComponent session ≠ "." ∧ sessionComponent session ≠ ".." ∨ ¬Fits settingsDir session

end Private

theorem isSocketChar_ne_slash {c : Char} (h : isSocketChar c = true) : c ≠ '/' := by
  rintro rfl
  exact absurd h (by decide)

theorem safeSocketComponent_proper (value : String) :
    safeSocketComponent value ≠ "" ∧ '/' ∉ (safeSocketComponent value).toList := by
  unfold safeSocketComponent
  dsimp only
  split
  · decide
  · next hne =>
      constructor
      · intro heq
        have hchars := congrArg String.toList heq
        rw [String.toList_ofList, String.toList_empty] at hchars
        exact hne (List.isEmpty_iff.mpr hchars)
      · rw [String.toList_ofList, List.mem_map]
        rintro ⟨c, -, hc⟩
        split at hc
        · next hsafe => exact isSocketChar_ne_slash hsafe hc
        · exact absurd hc (by decide)

theorem sessionComponent_proper (session : Option String) :
    sessionComponent session ≠ "" ∧ '/' ∉ (sessionComponent session).toList := by
  unfold sessionComponent
  cases (session.map trim).filter (!·.isEmpty) with
  | none => decide
  | some name => exact safeSocketComponent_proper name

section Places

variable {sha256 : List UInt8 → List UInt8} {settingsDir : String}
  {session session' : Option String}

theorem proper_of_long {name : String} (h : 2 < name.length) :
    name ≠ "" ∧ name ≠ "." ∧ name ≠ ".." := by
  refine ⟨?_, ?_, ?_⟩ <;> rintro rfl <;> exact absurd h (by decide)

theorem leadsTo_socketsIn (dir : String) :
    leadsTo (socketsIn dir).1 = ((leadsTo dir).1, "herdr.sock" :: (leadsTo dir).2) ∧
      leadsTo (socketsIn dir).2 = ((leadsTo dir).1, "herdr-client.sock" :: (leadsTo dir).2) := by
  have hproper : ("herdr.sock" ≠ "" ∧ "herdr.sock" ≠ "." ∧ "herdr.sock" ≠ "..") ∧
      ("herdr-client.sock" ≠ "" ∧ "herdr-client.sock" ≠ "." ∧ "herdr-client.sock" ≠ "..") := by
    decide
  constructor
  · rw [socketsIn, leadsTo_joinPath dir (by decide +kernel), enter_proper hproper.1]
  · rw [socketsIn, leadsTo_joinPath dir (by decide +kernel), enter_proper hproper.2]

theorem leadsTo_sessionDir (settingsDir : String) (session : Option String) :
    leadsTo (sessionDir settingsDir session) = ((leadsTo settingsDir).1,
      enter (leadsTo settingsDir).1 ("builtin" :: (leadsTo settingsDir).2)
        (sessionComponent session)) := by
  have hproper : "builtin" ≠ "" ∧ "builtin" ≠ "." ∧ "builtin" ≠ ".." := by decide
  rw [sessionDir, leadsTo_joinPath _ (sessionComponent_proper session).2,
    leadsTo_joinPath _ (by decide +kernel), enter_proper hproper]

theorem hexByte_plain (byte : UInt8) : '/' ∉ hexByte byte := by
  have hall : ∀ digit < 16, '/' ≠ Nat.digitChar digit := by decide
  have hbyte := byte.toNat_lt
  rw [hexByte, List.mem_pair, not_or]
  exact ⟨hall _ (by omega), hall _ (by omega)⟩

theorem leadsTo_fallback (value : String) :
    leadsTo (shortBuiltinSocketDir (shortSocketHash sha256 value)) =
      (true, ["herdr-webui-builtin-" ++ shortSocketHash sha256 value, "tmp"]) := by
  have htmp : leadsTo "/tmp" = (true, ["tmp"]) := by decide +kernel
  have hplain : '/' ∉ ("herdr-webui-builtin-" ++ shortSocketHash sha256 value).toList := by
    rw [String.toList_append, List.mem_append, not_or]
    constructor
    · decide +kernel
    · rw [shortSocketHash, String.toList_ofList, List.mem_flatMap]
      rintro ⟨byte, -, hbyte⟩
      exact hexByte_plain byte hbyte
  have hlong : 2 < ("herdr-webui-builtin-" ++ shortSocketHash sha256 value).length := by
    have hpre : "herdr-webui-builtin-".length = 20 := by decide +kernel
    rw [String.length_append]
    omega
  rw [shortBuiltinSocketDir, leadsTo_joinPath _ hplain, htmp, enter_proper (proper_of_long hlong)]

theorem builtinSocketPathsIn_fits (h : Fits settingsDir session) :
    builtinSocketPathsIn sha256 settingsDir session =
      socketsIn (sessionDir settingsDir session) := by
  unfold Fits at h
  unfold builtinSocketPathsIn
  dsimp only
  rw [if_pos h]

variable (sha256) in
/-- The sockets of a name that is safe: under the settings, or in the fallback. -/
theorem socket_places (h : SafeName settingsDir session) :
    (Fits settingsDir session ∧
      leadsTo (builtinSocketPathsIn sha256 settingsDir session).1 = ((leadsTo settingsDir).1,
        "herdr.sock" :: sessionComponent session :: "builtin" :: (leadsTo settingsDir).2) ∧
      leadsTo (builtinSocketPathsIn sha256 settingsDir session).2 = ((leadsTo settingsDir).1,
        "herdr-client.sock" :: sessionComponent session :: "builtin" ::
          (leadsTo settingsDir).2) ∧
      sessionComponent session ≠ "." ∧ sessionComponent session ≠ "..") ∨
    (¬Fits settingsDir session ∧
      leadsTo (builtinSocketPathsIn sha256 settingsDir session).1 = (true, ["herdr.sock",
        "herdr-webui-builtin-" ++ shortSocketHash sha256 (hashedText settingsDir session),
        "tmp"]) ∧
      leadsTo (builtinSocketPathsIn sha256 settingsDir session).2 = (true, ["herdr-client.sock",
        "herdr-webui-builtin-" ++ shortSocketHash sha256 (hashedText settingsDir session),
        "tmp"])) := by
  unfold builtinSocketPathsIn
  dsimp only
  split
  · next hfits =>
      obtain hnames | hlong := h
      · have hproper := And.intro (sessionComponent_proper session).1 hnames
        obtain ⟨hapi, hclient⟩ := leadsTo_socketsIn (sessionDir settingsDir session)
        rw [leadsTo_sessionDir, enter_proper hproper] at hapi hclient
        exact .inl ⟨hfits, hapi, hclient, hnames⟩
      · exact absurd hfits hlong
  · next hlong =>
      obtain ⟨hapi, hclient⟩ := leadsTo_socketsIn (shortBuiltinSocketDir
        (shortSocketHash sha256 (hashedText settingsDir session)))
      rw [leadsTo_fallback] at hapi hclient
      exact .inr ⟨hlong, hapi, hclient⟩

/-- A name has a directory of its own just if it is safe: of the two others one is
`builtin` itself and one is above it. -/
theorem inOwnDir_iff :
    InOwnDir sha256 settingsDir session ↔ SafeName settingsDir session := by
  constructor
  · rintro ⟨dir, hapi, -, hdir⟩
    by_cases hfits : Fits settingsDir session
    · rcases hdir with ⟨name, -, rfl⟩ | ⟨hlong, -⟩
      · rw [builtinSocketPathsIn_fits hfits, (leadsTo_socketsIn _).1, leadsTo_sessionDir]
          at hapi
        have hplace := List.cons.inj (Prod.mk.inj hapi).2
        refine .inl ⟨fun hdot => ?_, fun hdots => ?_⟩
        · rw [hdot] at hplace
          have hlength := congrArg List.length hplace.2
          simp [enter] at hlength
        · rw [hdots] at hplace
          have hlength := congrArg List.length hplace.2
          simp [enter] at hlength
          omega
      · exact absurd hfits hlong
    · exact .inr hfits
  · intro hsafe
    rcases socket_places sha256 hsafe with
      ⟨-, hapi, hclient, hnames⟩ | ⟨hlong, hapi, hclient⟩
    · exact ⟨_, hapi, hclient, .inl ⟨sessionComponent session,
        ⟨(sessionComponent_proper session).1, hnames⟩, rfl⟩⟩
    · exact ⟨_, hapi, hclient, .inr ⟨hlong, (leadsTo_fallback _).symm⟩⟩

theorem hexByte_inj {byte byte' : UInt8} (h : hexByte byte = hexByte byte') : byte = byte' := by
  have hdigit : ∀ a < 16, ∀ b < 16, Nat.digitChar a = Nat.digitChar b → a = b := by decide
  have hbyte := byte.toNat_lt
  have hbyte' := byte'.toNat_lt
  obtain ⟨hhigh, hlow⟩ := List.cons.inj h
  have hhigh := hdigit _ (by omega) _ (by omega) hhigh
  have hlow := hdigit _ (by omega) _ (by omega) (List.cons.inj hlow).1
  apply UInt8.toNat_inj.mp
  omega

theorem flatMap_hexByte_inj {bytes bytes' : List UInt8}
    (h : bytes.flatMap hexByte = bytes'.flatMap hexByte) : bytes = bytes' := by
  induction bytes generalizing bytes' with
  | nil =>
    cases bytes' with
    | nil => rfl
    | cons byte' bytes' => cases h
  | cons byte bytes ih =>
    cases bytes' with
    | nil => cases h
    | cons byte' bytes' =>
      rw [List.flatMap_cons, List.flatMap_cons] at h
      obtain ⟨hbyte, hrest⟩ := List.append_inj h rfl
      rw [hexByte_inj hbyte, ih hrest]

theorem sessionComponent_of_hashedText
    (h : hashedText settingsDir session = hashedText settingsDir session') :
    sessionComponent session = sessionComponent session' := by
  obtain ⟨pre, hpre⟩ := exists_joinPath_eq (joinPath settingsDir "builtin")
  rw [hashedText, hashedText, sessionDir, sessionDir, hpre _ (sessionComponent_proper _).2,
    hpre _ (sessionComponent_proper _).2] at h
  have hchars := congrArg String.toList h
  have hlength := congrArg List.length hchars
  simp only [String.toList_append, List.length_append] at hchars hlength
  apply String.toList_inj.mp
  exact (List.append_inj' hchars (by omega)).2

/-- Two sessions have private sockets just if their components differ and are safe. -/
theorem privateSockets_iff
    (hfree : (sha256 (utf8 (hashedText settingsDir session).toList)).take 8 =
        (sha256 (utf8 (hashedText settingsDir session').toList)).take 8 →
      hashedText settingsDir session = hashedText settingsDir session') :
    PrivateSockets sha256 settingsDir session session' ↔
      (canonicalSessionName session ≠ canonicalSessionName session' →
        sessionComponent session ≠ sessionComponent session') ∧
      SafeName settingsDir session ∧ SafeName settingsDir session' := by
  constructor
  · rintro ⟨hapart, hown, hown'⟩
    refine ⟨fun hnames hsame => ?_, inOwnDir_iff.mp hown, inOwnDir_iff.mp hown'⟩
    apply (hapart hnames).1
    rw [builtinSocketPathsIn, builtinSocketPathsIn, hashedText, hashedText, sessionDir,
      sessionDir, hsame]
  · rintro ⟨hcomponents, hsafe, hsafe'⟩
    refine ⟨fun hnames => ?_, inOwnDir_iff.mpr hsafe, inOwnDir_iff.mpr hsafe'⟩
    have hdiffer := hcomponents hnames
    have hhash : shortSocketHash sha256 (hashedText settingsDir session) ≠
        shortSocketHash sha256 (hashedText settingsDir session') := by
      intro heq
      have hdigits := congrArg String.toList heq
      rw [shortSocketHash, shortSocketHash, String.toList_ofList, String.toList_ofList] at hdigits
      exact hdiffer (sessionComponent_of_hashedText (hfree (flatMap_hexByte_inj hdigits)))
    have htmp : "builtin" ≠ "tmp" := by decide
    rcases socket_places sha256 hsafe with ⟨-, hapi, hclient, -⟩ | ⟨-, hapi, hclient⟩ <;>
    rcases socket_places sha256 hsafe' with ⟨-, hapi', hclient', -⟩ | ⟨-, hapi', hclient'⟩ <;>
    rw [hapi, hclient, hapi', hclient']
    · simp [hdiffer]
    · simp [htmp]
    · simp [htmp.symm]
    · simp [hhash]

end Places

section Example

def sampleDir : String := "/home/u/.config/herdr-webui"

def sampleSha256 (bytes : List UInt8) : List UInt8 :=
  if bytes = utf8 (hashedText sampleDir (some "work")).toList then
    [85, 152, 104, 131, 239, 242, 68, 235, 155, 50, 23, 105, 89, 115, 34, 222, 35, 224,
      226, 88, 184, 53, 223, 181, 86, 219, 110, 83, 178, 251, 207, 148]
  else
    [192, 125, 67, 215, 73, 25, 91, 190, 183, 140, 55, 75, 3, 39, 87, 238, 83, 184, 95,
      194, 213, 13, 168, 112, 123, 44, 181, 159, 60, 116, 180, 241]

theorem privateSockets_work_play :
    PrivateSockets sampleSha256 sampleDir (some "work") (some "play") := by
  apply (privateSockets_iff (by decide +kernel)).mpr
  exact ⟨by decide +kernel, .inl (by decide +kernel), .inl (by decide +kernel)⟩

/-- Two names share their sockets, and those of a third are in no directory of its own. -/
theorem not_privateSockets :
    ¬PrivateSockets sampleSha256 sampleDir (some "a b") (some "a_b") ∧
      ¬InOwnDir sampleSha256 sampleDir (some "..") := by
  constructor
  · intro h
    exact (h.apart (by decide +kernel)).1 (by decide +kernel)
  · rw [inOwnDir_iff]
    rintro (⟨-, hdots⟩ | hlong)
    · exact hdots (by decide +kernel)
    · apply hlong
      unfold Fits
      decide +kernel

end Example

end HerdrWebui.Session
