namespace SeedSearch.Catalog

-- With `lone`, a carriage return ends a line by itself.
-- `done` holds the lines so far and `line` the characters of the open one,
-- both latest first.
def linesFrom (lone : Bool) (done : List (List Char)) (line : List Char) :
    List Char → List (List Char) × List Char
  | [] => (done.reverse, line.reverse)
  | '\r' :: '\n' :: rest => linesFrom lone (('\n' :: '\r' :: line).reverse :: done) [] rest
  | c :: rest =>
    if c = '\n' || (lone && c = '\r') then linesFrom lone ((c :: line).reverse :: done) [] rest
    else linesFrom lone done (c :: line) rest

def lines (lone : Bool) (text : List Char) : List (List Char) × List Char := linesFrom lone [] [] text

end SeedSearch.Catalog
