import EnvAudit.Text.Lowercase

/-!
# Characters that differ only in case

Matching without regard to case takes two characters for one when their lower-case letters are the
same or belong to one group of look-alikes. So the letter k covers the Kelvin sign, s the long s,
and i both the dotted capital and the dotless small i. Main statement: `self_mem_caseVariants`.
-/
namespace EnvAudit

/-- Groups of lower-case letters that count as one letter. -/
def letterGroups : List (List Char) :=
  [['i', '\u0131'], ['s', '\u017F'], ['\u00B5', '\u03BC'], ['\u0345', '\u03B9', '\u1FBE'],
   ['\u0390', '\u1FD3'], ['\u03B0', '\u1FE3'], ['\u03B2', '\u03D0'], ['\u03B5', '\u03F5'],
   ['\u03B8', '\u03D1'], ['\u03BA', '\u03F0'], ['\u03C0', '\u03D6'], ['\u03C1', '\u03F1'],
   ['\u03C2', '\u03C3'], ['\u03C6', '\u03D5'], ['\u0432', '\u1C80'], ['\u0434', '\u1C81'],
   ['\u043E', '\u1C82'], ['\u0441', '\u1C83'], ['\u0442', '\u1C84', '\u1C85'],
   ['\u044A', '\u1C86'], ['\u0463', '\u1C87'], ['\u1C88', '\uA64B'], ['\u1E61', '\u1E9B'],
   ['\uFB05', '\uFB06']]

/-- The group of a lower-case letter. -/
def letterGroup (c : Char) : List Char :=
  (letterGroups.find? (·.contains c)).getD [c]

/-- The capitals whose single lower-case letter is `c`. -/
def capitalsOf (c : Char) : List Char :=
  (if c = 'i' then ['I', '\u0130'] else if c = '\u03C3' then ['\u03A3']
    else if c.isLower then [c.toUpper] else []) ++
  (caseRuns.filter fun r => r.covers (Int.toNat (c.toNat - r.shift))).map
    fun r => Char.ofNat (Int.toNat (c.toNat - r.shift))

/-- Every character that differs from an ASCII character in case only. -/
def asciiCaseVariants (c : Char) : List Char :=
  if c.isAlpha then
    let low := c.toLower
    c :: low :: low.toUpper ::
      (if low = 'i' then ['\u0130', '\u0131'] else if low = 'k' then ['\u212A']
        else if low = 's' then ['\u017F'] else [])
  else [c]

/-- The characters that differ from `c` in case only, `c` among them. -/
def caseVariants (c : Char) : List Char :=
  if c.toNat < 128 then asciiCaseVariants c
  else c :: (letterGroup (lowerOne c)).flatMap fun x => x :: capitalsOf x

theorem self_mem_caseVariants (c : Char) : c ∈ caseVariants c := by
  unfold caseVariants asciiCaseVariants
  split
  · split <;> simp
  · simp

end EnvAudit
