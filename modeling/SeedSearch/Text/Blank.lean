namespace SeedSearch.Text

-- White space: the Unicode characters of that property and the four ASCII
-- separators U+001C to U+001F. U+200B, U+FEFF, U+180E and NUL are not in it.
def isBlank (c : Char) : Bool :=
  let n := c.toNat
  (0x09 ≤ n && n ≤ 0x0d) || (0x1c ≤ n && n ≤ 0x20) || n == 0x85 || n == 0xa0 ||
    n == 0x1680 || (0x2000 ≤ n && n ≤ 0x200a) || n == 0x2028 || n == 0x2029 ||
    n == 0x202f || n == 0x205f || n == 0x3000

def trimBy (drops : Char → Bool) (text : List Char) : List Char :=
  ((text.dropWhile drops).reverse.dropWhile drops).reverse

def strip (text : String) : String := String.ofList (trimBy isBlank text.toList)

end SeedSearch.Text
