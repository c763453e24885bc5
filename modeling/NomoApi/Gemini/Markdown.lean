import NomoApi.Lib.Text

/-! # Images in markdown texts

The loop of `CovertOpenAI2Gemini` that takes images with a data URL out of a text part
(`relay/channel/gemini/relay-gemini.go`). -/

namespace NomoApi

open List Option

/-- `strings.Index`: what stands before and after the first `sub`. -/
def cut (sub : List Char) : List Char → Option (List Char × List Char)
  | [] => none
  | c :: cs =>
    if sub <+: c :: cs then some ([], (c :: cs).drop sub.length)
    else (cut sub cs).map fun (before, after) => (c :: before, after)

/-- The text before the next image, its URL and the text after it. -/
def nextImage (text : List Char) : Option (List Char × List Char × List Char) := do
  let (before, image) ← cut "![".toList text
  let (_, body) ← cut "](data:".toList ("![".toList ++ image)
  let (dataUrl, rest) ← cut ")".toList ("data:".toList ++ body)
  return (before, dataUrl, rest)

inductive TextOrImage (Image : Type)
  | text (text : List Char)
  | image (image : Image)
  deriving DecidableEq

variable {Image : Type} (decode : List Char → Option Image)

/-- **The loop**, for at most as many images as there are characters. -/
def markdownParts : Nat → List Char → Option (List (TextOrImage Image))
  | 0, _ => some []
  | n + 1, text =>
    match nextImage text with
    | none => some []
    | some (before, dataUrl, rest) => do
      let image ← decode dataUrl
      let parts ← markdownParts n rest
      return (if before = [] then [] else [.text before]) ++ .image image :: parts

/-- The parts of a text, `none` for an image that is not decoded. -/
def convertText (text : List Char) : Option (List (TextOrImage Image)) :=
  if nextImage text = none then some (if text = [] then [] else [.text text])
  else markdownParts decode (text.length + 1) text

/-- **What the loop takes for an image**, and the text before it. Of the text after its `![`, the
`ordinary` one belongs to an ordinary image or link; the alt text of a data image is the rest. -/
structure Illustration where
  before : List Char
  ordinary : List Char
  alt : List Char
  /-- What follows `data:`. -/
  body : List Char

open Illustration

def Illustration.url (i : Illustration) : List Char := "data:".toList ++ i.body

def Illustration.write (i : Illustration) (alt : List Char) : List Char :=
  i.before ++ "![".toList ++ alt ++ "](data:".toList ++ i.body ++ ")".toList

/-- Every text that the loop looks at begins with one of these, or has no image. -/
structure Illustration.Plain (i : Illustration) : Prop where
  before : ¬ "![".toList <:+: i.before
  alt : ¬ "](data:".toList <:+: i.ordinary ++ i.alt
  body : ')' ∉ i.body

def TextOrImage.read (encode : Image → List Char) : TextOrImage Image → List Char
  | .text t => t
  | .image i => "![](".toList ++ encode i ++ ")".toList

def Reproduces (encode : Image → List Char) (images : List Illustration) (after : List Char) :
    Prop :=
  (convertText decode (images.flatMap (fun i => i.write (i.ordinary ++ i.alt)) ++ after)).map
      (·.flatMap (TextOrImage.read encode)) =
    some (images.flatMap (fun i => i.write i.ordinary) ++ after)

theorem prefix_of_append {s : Char} {t before rest : List Char} (hs : s ∉ t)
    (h : t <+: before ++ s :: rest) : t <+: before := by
  induction t generalizing before with
  | nil => exact nil_prefix
  | cons x t ih =>
    obtain ⟨hx, ht⟩ := not_or.mp (mem_cons.not.mp hs)
    cases before with
    | nil => exact absurd (cons_prefix_cons.mp h).1.symm hx
    | cons c before =>
      obtain ⟨rfl, htail⟩ := cons_prefix_cons.mp h
      exact cons_prefix_cons.mpr ⟨rfl, ih ht htail⟩

/-- The first character of `sub` occurs in it once, so that no match starts earlier. -/
theorem cut_append {sub before : List Char} (s : Char) (t : List Char) (hsub : sub = s :: t)
    (hs : s ∉ t) (h : ¬ sub <:+: before) (rest : List Char) :
    cut sub (before ++ (sub ++ rest)) = some (before, rest) := by
  subst hsub
  induction before with
  | nil => simp [cut]
  | cons c before ih =>
    rw [infix_cons_iff, not_or] at h
    have hnot : ¬ s :: t <+: c :: (before ++ s :: (t ++ rest)) := by
      intro hp
      obtain ⟨rfl, htail⟩ := cons_prefix_cons.mp hp
      exact h.1 (cons_prefix_cons.mpr ⟨rfl, prefix_of_append hs htail⟩)
    simpa [cut, hnot] using ih h.2

variable {images : List Illustration} {after : List Char} {encode : Image → List Char}

theorem nextImage_write {i : Illustration} (hi : i.Plain) (rest : List Char) :
    nextImage (i.write (i.ordinary ++ i.alt) ++ rest) = some (i.before, i.url, rest) := by
  have halt : ¬ "](data:".toList <:+: "![".toList ++ (i.ordinary ++ i.alt) := by
    simpa [infix_cons_iff] using hi.alt
  have hbody : ¬ ")".toList <:+: i.url := by
    simpa [singleton_infix_iff, url] using hi.body
  have hbefore := cut_append '!' ['['] (by simp) (by simp) hi.before
    (i.ordinary ++ i.alt ++ ("](data:".toList ++ (i.body ++ (")".toList ++ rest))))
  have hbracket := cut_append ']' "(data:".toList (by simp) (by simp) halt
    (i.body ++ (")".toList ++ rest))
  have hclose := cut_append ')' [] (by simp) (by simp) hbody rest
  simp only [append_assoc, url] at hbefore hbracket hclose
  simp only [nextImage, write, url, append_assoc, hbefore, hbracket,
    hclose, bind_eq_bind, bind_some, Option.pure_def]

theorem length_le_write (images : List Illustration) (after : List Char) : images.length ≤
    (images.flatMap (fun i => i.write (i.ordinary ++ i.alt)) ++ after).length := by
  induction images with
  | nil => simp
  | cons i images ih =>
    simp [write] at ih ⊢
    omega

theorem write_eq_iff (images : List Illustration) (after : List Char) :
    images.flatMap (fun i => i.write []) = images.flatMap (fun i => i.write i.ordinary) ++ after ↔
      after = [] ∧ ∀ i ∈ images, i.ordinary = [] := by
  have hlength : (images.flatMap fun i => i.write []).length ≤
        (images.flatMap fun i => i.write i.ordinary).length ∧
      ∀ i ∈ images, (images.flatMap fun i => i.write []).length + i.ordinary.length ≤
        (images.flatMap fun i => i.write i.ordinary).length := by
    induction images with
    | nil => simp
    | cons i images ih =>
      have hwrite : (i.write i.ordinary).length = (i.write []).length + i.ordinary.length := by
        simp only [write, length_append, length_nil]
        omega
      simp only [flatMap_cons, length_append, hwrite, forall_mem_cons]
      exact ⟨by omega, by omega, fun j hj => by have := ih.2 j hj; omega⟩
  constructor
  · intro h
    have heq := congrArg length h
    rw [length_append] at heq
    refine ⟨length_eq_zero_iff.mp (by omega), fun i hi => length_eq_zero_iff.mp ?_⟩
    have := hlength.2 i hi
    omega
  · rintro ⟨rfl, h⟩
    rw [append_nil]
    exact flatMap_congr fun i hi => by rw [h i hi]

section

variable (hplain : ∀ i ∈ images, i.Plain)
  (hencode : ∀ i ∈ images, ∀ image, decode i.url = some image → encode image = i.url)
  (hafter : nextImage after = none)
include hplain hencode hafter

/-- Every round of the loop takes one image out; the text after the last one is not looked at. -/
theorem markdownParts_read {n : Nat} (hn : images.length < n) :
    (markdownParts decode n
        (images.flatMap (fun i => i.write (i.ordinary ++ i.alt)) ++ after)).map
      (·.flatMap (TextOrImage.read encode)) =
        if ∀ i ∈ images, (decode i.url).isSome = true then
          some (images.flatMap fun i => i.write [])
        else none := by
  induction images generalizing n with
  | nil =>
    obtain ⟨n, rfl⟩ := Nat.exists_eq_add_of_lt hn
    simp [markdownParts, hafter]
  | cons i images ih =>
    obtain ⟨n, rfl⟩ := Nat.exists_eq_add_of_lt hn
    obtain ⟨hi, hplain⟩ := forall_mem_cons.mp hplain
    obtain ⟨hencode, hrest⟩ := forall_mem_cons.mp hencode
    have hparts := @ih hplain hrest ((i :: images).length + n) (by simp; omega)
    rw [flatMap_cons, append_assoc, markdownParts, nextImage_write hi]
    simp only [forall_mem_cons]
    cases himage : decode i.url with
    | none => simp
    | some image =>
      have hwrite : (if i.before = [] then [] else [TextOrImage.text i.before]).flatMap
          (TextOrImage.read encode) ++ TextOrImage.read encode (.image image) = i.write [] := by
        have himage : encode image = "data:".toList ++ i.body := hencode image himage
        split <;> simp_all [TextOrImage.read, write]
      by_cases hall : ∀ j ∈ images, (decode j.url).isSome = true
      · rw [if_pos hall] at hparts
        obtain ⟨parts, hparts, hread⟩ := map_eq_some_iff.mp hparts
        refine Eq.trans ?_ (if_pos ⟨rfl, hall⟩).symm
        simp only [hparts, bind_eq_bind, bind_some, Option.pure_def, map_some, flatMap_append,
          flatMap_cons, ← append_assoc, hwrite, hread]
      · rw [if_neg hall] at hparts
        refine Eq.trans ?_ (if_neg fun h => hall h.2).symm
        rw [map_eq_none_iff.mp hparts]
        rfl

end

/-! ### Base64 images -/

/-- **`DecodeBase64FileData`**: the type and the data of a URL with both. The others are decoded by
`decodeImage`. -/
def decodeBase64FileData (decodeImage : List Char → Option (List Char × List Char))
    (url : List Char) : Option (List Char × List Char) :=
  match cut ",".toList url with
  | none => decodeImage url
  | some (head, data) =>
    match cut ";".toList head with
    | none => decodeImage data
    | some (type, _) =>
      match cut ":".toList type with
      | none => decodeImage data
      | some (_, mimeType) => some (mimeType, data)

def encodeBase64 (image : List Char × List Char) : List Char :=
  "data:".toList ++ image.1 ++ ";base64,".toList ++ image.2

def dots : Illustration := ⟨"See ".toList, [], "dots".toList, "image/png;base64,aGk=".toList⟩

end NomoApi
