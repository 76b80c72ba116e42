import ResourcePool.Demo.Quick

/-! The command: prints the quick demonstration. -/

def main : IO Unit :=
  ResourcePool.Demo.quick.forM IO.println
